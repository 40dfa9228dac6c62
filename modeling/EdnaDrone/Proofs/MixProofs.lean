import EdnaDrone.Proofs.EscProofs
import EdnaDrone.Proofs.ExactProofs

/-!
# The mixer under saturation

The four sums of `motor_mix` in exact arithmetic. Above the throttle floor no sum passes the upper
pulse limit and at most one falls below the lower one; what that motor gains by the clamp is less
than what the command asks of the other three.
-/

namespace EdnaDrone

open CNum

/-! ## Sums and differentials -/

/-- The sums that `motor_mix` clamps, by motor. -/
def mixSums {F : Type} [Add F] [Sub F] [CNum F] (throttleUs : ℤ) (pitch roll yaw : F) : Motor → F :=
  ![ofInt throttleUs + pitch + roll - yaw, ofInt throttleUs + pitch - roll + yaw,
    ofInt throttleUs - pitch + roll + yaw, ofInt throttleUs - pitch - roll - yaw]

def MotorOutputs.pulse (o : MotorOutputs) : Motor → ℕ := pulseOf o.fl o.fr o.rl o.rr

theorem motorMix_pulse {F : Type} [Add F] [Sub F] [LT F] [DecidableLT F] [CNum F] (t : ℤ)
    (p r y : F) (m : Motor) : (motorMix t p r y).pulse m = clampUs (mixSums t p r y m) := by
  fin_cases m <;> rfl

/-- The front motors against the rear ones. -/
def MotorOutputs.pitchDiff (o : MotorOutputs) : ℤ := (o.fl + o.fr : ℤ) - (o.rl + o.rr)

/-- The left motors against the right ones. -/
def MotorOutputs.rollDiff (o : MotorOutputs) : ℤ := (o.fl + o.rl : ℤ) - (o.fr + o.rr)

/-- The pair FR, RL against the pair FL, RR. -/
def MotorOutputs.yawDiff (o : MotorOutputs) : ℤ := (o.fr + o.rl : ℤ) - (o.fl + o.rr)

variable {K : Type} [Field K] [LinearOrder K] [IsStrictOrderedRing K] [FloorRing K]

theorem clampUs_of_le {x : K} (h : x ≤ (escPwmMaxUs : K)) :
    (clampUs x : ℤ) = max (escPwmMinUs : ℤ) ⌊x⌋ := by
  unfold clampUs
  rw [ofInt_exact, ofInt_exact, Int.cast_natCast, Int.cast_natCast]
  by_cases hlo : x < (escPwmMinUs : K)
  · have hfloor : ⌊x⌋ < (escPwmMinUs : ℤ) := Int.floor_lt.2 (by exact_mod_cast hlo)
    rw [if_pos hlo, max_eq_left hfloor.le]
  · have hge : (escPwmMinUs : K) ≤ x := not_lt.1 hlo
    have hfloor : (escPwmMinUs : ℤ) ≤ ⌊x⌋ := Int.le_floor.2 (by exact_mod_cast hge)
    have hx : 0 ≤ x := le_trans (Nat.cast_nonneg _) hge
    rw [if_neg hlo, if_neg (not_lt.2 h), toInt_of_nonneg hx, max_eq_right hfloor]
    omega

/-- The pair of motors that a command raises keeps ahead of the pair that it lowers: truncation takes
at most one from the one and nothing is left of a clamp in the other. -/
theorem clampUs_pair_le {t : ℤ} {d x₁ x₂ x₃ x₄ : K} (ht : (escPwmSpinUs : ℤ) < t) (hd : 0 < d)
    (h₁₂ : x₁ + x₂ = 2 * (t + d)) (h₃₄ : x₃ + x₄ = 2 * (t - d))
    (h₁ : x₁ ≤ (escPwmMaxUs : K)) (h₂ : x₂ ≤ (escPwmMaxUs : K)) (h₃ : x₃ ≤ (escPwmMaxUs : K))
    (h₄ : x₄ ≤ (escPwmMaxUs : K)) (h₃' : x₃ < t + 200) (h₄' : x₄ < t + 200) :
    (clampUs x₃ + clampUs x₄ : ℤ) ≤ clampUs x₁ + clampUs x₂ := by
  rw [clampUs_of_le h₁, clampUs_of_le h₂, clampUs_of_le h₃, clampUs_of_le h₄]
  have hraise : 2 * t - 1 ≤ ⌊x₁⌋ + ⌊x₂⌋ := by
    have hsum : 2 * t ≤ ⌊x₁ + x₂⌋ := by
      rw [Int.le_floor, h₁₂]
      push_cast
      linarith
    have := Int.le_floor_add_floor x₁ x₂
    omega
  have hlower : ⌊x₃⌋ + ⌊x₄⌋ < 2 * t := by
    have hsum : ⌊x₃ + x₄⌋ < 2 * t := by
      rw [Int.floor_lt, h₃₄]
      push_cast
      linarith
    exact (Int.le_floor_add x₃ x₄).trans_lt hsum
  have hx₃ : ⌊x₃⌋ < t + 200 := Int.floor_lt.2 (by exact_mod_cast h₃')
  have hx₄ : ⌊x₄⌋ < t + 200 := Int.floor_lt.2 (by exact_mod_cast h₄')
  simp only [escPwmMinUs, escPwmSpinUs] at *
  omega

/-! ## The law -/

section Law

variable {t : ℤ} {p r y : K}

/-- A throttle the mixer is called with, and outputs within the PID limit. -/
structure MixInputs (t : ℤ) (p r y : K) : Prop where
  throttle : (escPwmSpinUs : ℤ) < t ∧ t ≤ escPwmFlightMaxUs
  pitch : |p| ≤ (pidOutputLimit : K)
  roll : |r| ≤ (pidOutputLimit : K)
  yaw : |y| ≤ (pidOutputLimit : K)

theorem MixInputs.bounds (h : MixInputs t p r y) :
    ((1201 : K) ≤ t ∧ (t : K) ≤ 1300) ∧ (-100 ≤ p ∧ p ≤ 100) ∧ (-100 ≤ r ∧ r ≤ 100) ∧
      (-100 ≤ y ∧ y ≤ 100) := by
  have hlim : ((pidOutputLimit : ℚ) : K) = 100 := by norm_num [pidOutputLimit]
  have hp := h.pitch
  have hr := h.roll
  have hy := h.yaw
  rw [hlim, abs_le] at hp hr hy
  have h1 : (1201 : ℤ) ≤ t := h.throttle.1
  have h2 : t ≤ 1300 := h.throttle.2
  exact ⟨⟨by exact_mod_cast h1, by exact_mod_cast h2⟩, hp, hr, hy⟩

theorem mixSums_le (h : MixInputs t p r y) (m : Motor) :
    mixSums t p r y m ≤ (escPwmMaxUs : K) := by
  obtain ⟨⟨-, ht⟩, ⟨hp, hp'⟩, ⟨hr, hr'⟩, hy, hy'⟩ := h.bounds
  have hmax : ((escPwmMaxUs : ℕ) : K) = 1600 := by norm_num [escPwmMaxUs]
  rw [hmax]
  fin_cases m <;> simp [mixSums, ofInt_exact] <;> linarith

/-- Any two of the sums add up to more than twice the lower limit. -/
theorem mixSums_low_unique (h : MixInputs t p r y) {m m' : Motor}
    (hm : mixSums t p r y m < (escPwmMinUs : K)) (hm' : mixSums t p r y m' < (escPwmMinUs : K)) :
    m = m' := by
  obtain ⟨⟨ht, -⟩, ⟨hp, hp'⟩, ⟨hr, hr'⟩, hy, hy'⟩ := h.bounds
  have hmin : ((escPwmMinUs : ℕ) : K) = 1000 := by norm_num [escPwmMinUs]
  rw [hmin] at hm hm'
  fin_cases m <;> fin_cases m' <;> simp [mixSums, ofInt_exact] at hm hm' ⊢ <;> linarith

/-- The differentials, each the sum of the raised pair minus that of the lowered one. -/
theorem motorMix_diffs (h : MixInputs t p r y) :
    (0 < p → 0 ≤ (motorMix t p r y).pitchDiff) ∧ (p < 0 → (motorMix t p r y).pitchDiff ≤ 0) ∧
      (0 < r → 0 ≤ (motorMix t p r y).rollDiff) ∧ (r < 0 → (motorMix t p r y).rollDiff ≤ 0) ∧
      (0 < y → 0 ≤ (motorMix t p r y).yawDiff) ∧ (y < 0 → (motorMix t p r y).yawDiff ≤ 0) := by
  have ht := h.throttle.1
  obtain ⟨-, ⟨hp, hp'⟩, ⟨hr, hr'⟩, hy, hy'⟩ := h.bounds
  have hfl : (t : K) + p + r - y ≤ (escPwmMaxUs : K) := mixSums_le h motorFl
  have hfr : (t : K) + p - r + y ≤ (escPwmMaxUs : K) := mixSums_le h motorFr
  have hrl : (t : K) - p + r + y ≤ (escPwmMaxUs : K) := mixSums_le h motorRl
  have hrr : (t : K) - p - r - y ≤ (escPwmMaxUs : K) := mixSums_le h motorRr
  have hpair := @clampUs_pair_le K _ _ _ _ t
  have hmix : motorMix t p r y = ⟨clampUs ((t : K) + p + r - y), clampUs ((t : K) + p - r + y),
      clampUs ((t : K) - p + r + y), clampUs ((t : K) - p - r - y)⟩ := rfl
  rw [hmix]
  simp only [MotorOutputs.pitchDiff, MotorOutputs.rollDiff, MotorOutputs.yawDiff, sub_nonneg,
    sub_nonpos]
  refine ⟨fun hd => ?_, fun hd => ?_, fun hd => ?_, fun hd => ?_, fun hd => ?_, fun hd => ?_⟩
  · exact hpair ht hd (by ring) (by ring) hfl hfr hrl hrr (by linarith) (by linarith)
  · exact hpair ht (neg_pos.2 hd) (by ring) (by ring) hrl hrr hfl hfr (by linarith) (by linarith)
  · exact hpair ht hd (by ring) (by ring) hfl hrl hfr hrr (by linarith) (by linarith)
  · exact hpair ht (neg_pos.2 hd) (by ring) (by ring) hfr hrr hfl hrl (by linarith) (by linarith)
  · exact hpair ht hd (by ring) (by ring) hfr hrl hfl hrr (by linarith) (by linarith)
  · exact hpair ht (neg_pos.2 hd) (by ring) (by ring) hfl hrr hfr hrl (by linarith) (by linarith)

/-- The mixer keeps control authority under saturation: what it clamps are the four sums. -/
theorem mixer_keeps_authority (ht : (escPwmSpinUs : ℤ) < t ∧ t ≤ escPwmFlightMaxUs)
    (hp : |p| ≤ (pidOutputLimit : K)) (hr : |r| ≤ (pidOutputLimit : K))
    (hy : |y| ≤ (pidOutputLimit : K)) :
    (∀ m, (motorMix t p r y).pulse m = clampUs (mixSums t p r y m)) ∧
      (∀ m, mixSums t p r y m ≤ (escPwmMaxUs : K)) ∧
      (∀ m m', mixSums t p r y m < (escPwmMinUs : K) → mixSums t p r y m' < (escPwmMinUs : K) →
        m = m') ∧
      (0 < p → 0 ≤ (motorMix t p r y).pitchDiff) ∧ (p < 0 → (motorMix t p r y).pitchDiff ≤ 0) ∧
      (0 < r → 0 ≤ (motorMix t p r y).rollDiff) ∧ (r < 0 → (motorMix t p r y).rollDiff ≤ 0) ∧
      (0 < y → 0 ≤ (motorMix t p r y).yawDiff) ∧ (y < 0 → (motorMix t p r y).yawDiff ≤ 0) := by
  have h : MixInputs t p r y := ⟨ht, hp, hr, hy⟩
  exact ⟨motorMix_pulse t p r y, mixSums_le h, fun _ _ => mixSums_low_unique h, motorMix_diffs h⟩

/-- The lowest throttle of the mixing branch with the outputs at their limits: the rear right motor
is clamped. -/
theorem mixer_keeps_authority_saturated :
    (mixSums 1201 100 100 (99 : ℚ) motorRr < (escPwmMinUs : ℚ)) ∧
      (motorMix 1201 100 100 (99 : ℚ)).pulse motorRr =
        clampUs (mixSums 1201 100 100 (99 : ℚ) motorRr) ∧
      0 ≤ (motorMix 1201 100 100 (99 : ℚ)).pitchDiff := by
  have h := mixer_keeps_authority (K := ℚ) (t := 1201) (p := 100) (r := 100) (y := 99)
    (by decide) (by norm_num [pidOutputLimit]) (by norm_num [pidOutputLimit])
    (by norm_num [pidOutputLimit])
  exact ⟨by decide +kernel, h.1 motorRr, h.2.2.2.1 (by norm_num)⟩

end Law

end EdnaDrone
