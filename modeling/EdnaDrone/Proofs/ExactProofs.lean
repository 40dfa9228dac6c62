import EdnaDrone.Controller
import EdnaDrone.FlightController

/-!
# The numeric functions in exact arithmetic

Ranges of the throttle accumulator, of the stick mappings and of the mixer outputs over an ordered
field.
-/

namespace EdnaDrone

open CNum

/-! ## The throttle accumulator -/

theorem clampThrottle_mem (us : ℤ) :
    (escPwmMinUs : ℤ) ≤ clampThrottle us ∧ clampThrottle us ≤ escPwmFlightMaxUs := by
  unfold clampThrottle
  simp only [escPwmMinUs, escPwmFlightMaxUs]
  constructor <;> split_ifs <;> omega

section

variable {F : Type} [Add F] [Mul F] [Div F] [LT F] [DecidableLT F] [CNum F]

/-- The accumulator stays between the pulse limits, in any arithmetic. -/
theorem accumulateThrottle_mem {t : ℤ} (raw : ℤ) (h1 : (escPwmMinUs : ℤ) ≤ t)
    (h2 : t ≤ escPwmFlightMaxUs) :
    (escPwmMinUs : ℤ) ≤ accumulateThrottle F raw t ∧
      accumulateThrottle F raw t ≤ escPwmFlightMaxUs := by
  unfold accumulateThrottle
  dsimp only
  split
  · exact ⟨h1, h2⟩
  · split
    · exact clampThrottle_mem _
    · exact clampThrottle_mem _

end

variable {K : Type} [Field K] [LinearOrder K] [IsStrictOrderedRing K] [FloorRing K]

/-! ## The sticks -/

theorem abs_applyDeadband_le {raw : ℤ} (h : |raw| ≤ stickMax) :
    |(applyDeadband raw : K)| ≤ (stickMax : K) := by
  unfold applyDeadband
  split
  · rw [ofRat_exact, Rat.cast_zero, abs_zero]
    norm_num [stickMax]
  · rw [ofInt_exact, ← Int.cast_abs]
    exact_mod_cast h

/-- A deflection of at most the stick range, scaled to `bound`, is at most `bound`. -/
theorem abs_scaled_le {x : K} {bound : ℚ} (hb : 0 ≤ bound) (h : |x| ≤ (stickMax : K)) :
    |x / (ofInt stickMax : K) * (ofRat bound : K)| ≤ (bound : K) := by
  have hs : (0 : K) < (stickMax : K) := by norm_num [stickMax]
  have hb' : (0 : K) ≤ (bound : K) := by exact_mod_cast hb
  rw [ofInt_exact, ofRat_exact, abs_mul, abs_div, abs_of_pos hs, abs_of_nonneg hb']
  have h1 : |x| / (stickMax : K) ≤ 1 := (div_le_one hs).2 h
  calc |x| / (stickMax : K) * (bound : K) ≤ 1 * (bound : K) := mul_le_mul_of_nonneg_right h1 hb'
    _ = bound := one_mul _

theorem abs_normalizeAngle_le {raw : ℤ} (h : |raw| ≤ stickMax) :
    |(normalizeAngle raw : K)| ≤ (angleSetpointMax : K) :=
  abs_scaled_le (by norm_num [angleSetpointMax]) (abs_applyDeadband_le h)

theorem abs_normalizeYaw_le {raw : ℤ} (h : |raw| ≤ stickMax) :
    |(normalizeYaw raw : K)| ≤ (yawRateMax : K) :=
  abs_scaled_le (by norm_num [yawRateMax]) (abs_applyDeadband_le h)

/-! ## The mixer -/

/-- A pulse the ESC driver passes on unchanged. -/
def PulseInRange (p : ℕ) : Prop := escPwmMinUs ≤ p ∧ p ≤ escPwmMaxUs

theorem clampUs_mem (x : K) : PulseInRange (clampUs x) := by
  unfold PulseInRange clampUs
  by_cases h1 : x < ofInt escPwmMinUs
  · rw [if_pos h1]
    exact ⟨le_rfl, by decide⟩
  rw [if_neg h1]
  by_cases h2 : (ofInt escPwmMaxUs : K) < x
  · rw [if_pos h2]
    exact ⟨by decide, le_rfl⟩
  rw [if_neg h2]
  rw [ofInt_exact] at h1 h2
  have h1' : (escPwmMinUs : K) ≤ x := by simpa using h1
  have h2' : x ≤ (escPwmMaxUs : K) := by simpa using h2
  have hx : 0 ≤ x := le_trans (by positivity) h1'
  rw [toInt_of_nonneg hx]
  have hlo : (escPwmMinUs : ℤ) ≤ ⌊x⌋ := Int.le_floor.2 (by exact_mod_cast h1')
  have hhi : ⌊x⌋ ≤ (escPwmMaxUs : ℤ) := Int.floor_le_iff.2 (lt_of_le_of_lt (by exact_mod_cast h2') (lt_add_one _))
  omega

theorem motorMix_mem (t : ℤ) (p r y : K) :
    PulseInRange (motorMix t p r y).fl ∧ PulseInRange (motorMix t p r y).fr ∧
      PulseInRange (motorMix t p r y).rl ∧ PulseInRange (motorMix t p r y).rr :=
  ⟨clampUs_mem _, clampUs_mem _, clampUs_mem _, clampUs_mem _⟩

end EdnaDrone
