import EdnaDrone.Lib.FltOrder
import EdnaDrone.Proofs.FloatProofs
import EdnaDrone.Proofs.MixProofs

/-!
# The direction of the yaw loop

`motor_mix` subtracts the yaw output from the sums of FL and RR, the clockwise motors, and adds it to
those of FR and RL. In the code's own arithmetic a larger yaw output can therefore only lower the
counter-clockwise reaction, and leaves it as it is exactly when every sum stays between the same two
whole microseconds.
-/

namespace EdnaDrone

open Lib CNum

open Lib.Flt hiding ofRat abs

/-- The counter-clockwise reaction: the clockwise motors FL, RR against FR, RL. -/
def MotorOutputs.ccwReaction (o : MotorOutputs) : ℤ := (o.fl + o.rr : ℤ) - (o.fr + o.rl)

/-- No sum passes a whole microsecond that the pulse limits leave, when the yaw output changes from
`y₁` to `y₂`. -/
def YawUnfelt (t : ℤ) (p r y₁ y₂ : CFloat) : Prop :=
  ∀ m, ∀ n : ℤ, (escPwmMinUs : ℤ) < n → n ≤ escPwmMaxUs →
    (ofInt n ≤ mixSums t p r y₁ m ↔ ofInt n ≤ mixSums t p r y₂ m)

/-! ## Pulses of sums -/

theorem val_pulse {n : ℤ} (h : (escPwmMinUs : ℤ) ≤ n ∧ n ≤ escPwmMaxUs) :
    (ofInt n : CFloat).IsFinite ∧ (ofInt n : CFloat).val = n := by
  apply val_ofInt
  rw [abs_le]
  simp only [escPwmMinUs, escPwmMaxUs] at h
  omega

/-- The pulse of a sum reaches `n` exactly when the sum does. -/
theorem le_clampUs_iff (a : CFloat) {n : ℤ} (h : (escPwmMinUs : ℤ) < n ∧ n ≤ escPwmMaxUs) :
    n ≤ (clampUs a : ℤ) ↔ ofInt n ≤ a := by
  obtain ⟨hnf, hn⟩ := val_pulse ⟨h.1.le, h.2⟩
  obtain ⟨hlof, hlo⟩ := val_pulse (n := escPwmMinUs) ⟨le_rfl, by decide⟩
  obtain ⟨hhif, hhi⟩ := val_pulse (n := escPwmMaxUs) ⟨by decide, le_rfl⟩
  have hlt : (ofInt escPwmMinUs : CFloat) < ofInt n := by
    rw [lt_iff_not_le hlof.isNum hnf.isNum, le_iff_val hnf hlof, hn, hlo, not_le]
    exact_mod_cast h.1
  have hle : (ofInt n : CFloat) ≤ ofInt escPwmMaxUs := by
    rw [le_iff_val hnf hhif, hn, hhi]
    exact_mod_cast h.2
  unfold clampUs
  split_ifs with h1 h2
  · refine iff_of_false (not_le.2 h.1) fun hna => ?_
    have ha := (isNum_of_le hna).2
    rw [lt_iff_not_le ha hlof.isNum] at h1
    exact h1 (Flt.le_trans (Flt.le_of_lt hlt) hna)
  · exact iff_of_true h.2 (Flt.le_trans hle (Flt.le_of_lt h2))
  by_cases ha : a.IsNum
  · have hfin : a.IsFinite :=
      IsFinite.of_between hlof hhif (ha.le_of_not_lt hlof.isNum h1) (hhif.isNum.le_of_not_lt ha h2)
    have hpos : 0 < n := lt_of_le_of_lt (by decide) h.1
    rw [le_iff_val hnf hfin, hn, ← le_trunc_iff hpos]
    show n ≤ ((trunc a).toNat : ℤ) ↔ _
    omega
  · have hnan : a = .nan := not_not.1 ha
    subst hnan
    refine iff_of_false ?_ fun hna => (isNum_of_le hna).2 rfl
    have h0 : ((toInt (Flt.nan : CFloat)).toNat : ℤ) = 0 := by decide +kernel
    rw [h0]
    simp only [escPwmMinUs] at h
    omega

theorem clampUs_range {a : CFloat} (ha : a.IsNum) :
    (escPwmMinUs : ℤ) ≤ clampUs a ∧ (clampUs a : ℤ) ≤ escPwmMaxUs := by
  obtain ⟨hlof, hlo⟩ := val_pulse (n := escPwmMinUs) ⟨le_rfl, by decide⟩
  obtain ⟨hhif, hhi⟩ := val_pulse (n := escPwmMaxUs) ⟨by decide, le_rfl⟩
  unfold clampUs
  split_ifs with h1 h2
  · exact ⟨le_rfl, by decide⟩
  · exact ⟨by decide, le_rfl⟩
  have h3 := ha.le_of_not_lt hlof.isNum h1
  have h4 := hhif.isNum.le_of_not_lt ha h2
  have hfin : a.IsFinite := IsFinite.of_between hlof hhif h3 h4
  rw [le_iff_val hlof hfin, hlo] at h3
  rw [le_iff_val hfin hhif, hhi] at h4
  have hge : (escPwmMinUs : ℤ) ≤ trunc a := (le_trunc_iff (by decide)).2 h3
  have hle : ¬ (escPwmMaxUs : ℤ) + 1 ≤ trunc a := by
    rw [le_trunc_iff (by decide)]
    push_cast at h4 ⊢
    linarith
  show (escPwmMinUs : ℤ) ≤ ((trunc a).toNat : ℤ) ∧ ((trunc a).toNat : ℤ) ≤ escPwmMaxUs
  omega

theorem clampUs_le_of_le {a b : CFloat} (h : a ≤ b) : (clampUs a : ℤ) ≤ clampUs b := by
  obtain ⟨ha, hb⟩ := isNum_of_le h
  by_contra hlt
  have hrange := clampUs_range ha
  have hrange' := clampUs_range hb
  have hn : (escPwmMinUs : ℤ) < clampUs a ∧ (clampUs a : ℤ) ≤ escPwmMaxUs := ⟨by omega, hrange.2⟩
  have hle := (le_clampUs_iff a hn).1 le_rfl
  exact hlt ((le_clampUs_iff b hn).2 (Flt.le_trans hle h))

/-- Two sums give one pulse exactly when they reach the same whole microseconds. -/
theorem clampUs_eq_iff {a b : CFloat} (ha : a.IsNum) (hb : b.IsNum) :
    (clampUs a : ℤ) = clampUs b ↔ ∀ n : ℤ, (escPwmMinUs : ℤ) < n → n ≤ escPwmMaxUs →
      (ofInt n ≤ a ↔ ofInt n ≤ b) := by
  constructor
  · intro h n h1 h2
    rw [← le_clampUs_iff a ⟨h1, h2⟩, ← le_clampUs_iff b ⟨h1, h2⟩, h]
  · intro h
    have hra := clampUs_range ha
    have hrb := clampUs_range hb
    have hiff : ∀ n : ℤ, (escPwmMinUs : ℤ) < n → n ≤ escPwmMaxUs →
        (n ≤ (clampUs a : ℤ) ↔ n ≤ (clampUs b : ℤ)) := fun n h1 h2 => by
      rw [le_clampUs_iff a ⟨h1, h2⟩, le_clampUs_iff b ⟨h1, h2⟩, h n h1 h2]
    rcases lt_trichotomy (clampUs a : ℤ) (clampUs b) with hlt | heq | hgt
    · have := hiff (clampUs b) (by omega) hrb.2
      omega
    · exact heq
    · have := hiff (clampUs a) (by omega) hra.2
      omega

/-! ## The mixer -/

section Mix

variable {t : ℤ} {p r y₁ y₂ : CFloat}

/-- Throttle, pitch and roll sum to a number, whichever signs they have. -/
theorem isNum_base (t : ℤ) (hp : p.IsFinite) (hr : r.IsFinite) :
    (ofInt t + p + r).IsNum ∧ (ofInt t + p - r).IsNum ∧ (ofInt t - p + r).IsNum ∧
      (ofInt t - p - r).IsNum := by
  have h1 := (isNum_ofInt t).add_finite hp
  have h2 := (isNum_ofInt t).sub_finite hp
  exact ⟨h1.add_finite hr, h1.sub_finite hr, h2.add_finite hr, h2.sub_finite hr⟩

/-- A larger yaw output lowers the sums of FL and RR and raises those of FR and RL. -/
theorem mixSums_yaw (hp : p.IsFinite) (hr : r.IsFinite) (h₁ : y₁.IsFinite) (h₂ : y₂.IsFinite)
    (h : y₁.val ≤ y₂.val) :
    mixSums t p r y₂ motorFl ≤ mixSums t p r y₁ motorFl ∧
      mixSums t p r y₁ motorFr ≤ mixSums t p r y₂ motorFr ∧
      mixSums t p r y₁ motorRl ≤ mixSums t p r y₂ motorRl ∧
      mixSums t p r y₂ motorRr ≤ mixSums t p r y₁ motorRr := by
  obtain ⟨hfl, hfr, hrl, hrr⟩ := isNum_base t hp hr
  exact ⟨sub_le_sub_left_of_finite hfl h₁ h₂ h, add_le_add_left_of_finite hfr h₁ h₂ h,
    add_le_add_left_of_finite hrl h₁ h₂ h, sub_le_sub_left_of_finite hrr h₁ h₂ h⟩

/-- What the code makes of a larger yaw output: the reaction does not grow, and it keeps its value
exactly when no motor feels the change. -/
theorem ccwReaction_yaw (hp : p.IsFinite) (hr : r.IsFinite) (h₁ : y₁.IsFinite) (h₂ : y₂.IsFinite)
    (h : y₁.val ≤ y₂.val) :
    (motorMix t p r y₁).ccwReaction ≤ (motorMix t p r y₂).ccwReaction ↔ YawUnfelt t p r y₁ y₂ := by
  obtain ⟨hfl, hfr, hrl, hrr⟩ := mixSums_yaw (t := t) hp hr h₁ h₂ h
  have hnum : ∀ m, (mixSums t p r y₁ m).IsNum ∧ (mixSums t p r y₂ m).IsNum := by
    intro m
    fin_cases m
    · exact (isNum_of_le hfl).symm
    · exact isNum_of_le hfr
    · exact isNum_of_le hrl
    · exact (isNum_of_le hrr).symm
  have heq : YawUnfelt t p r y₁ y₂ ↔
      ∀ m, (clampUs (mixSums t p r y₁ m) : ℤ) = clampUs (mixSums t p r y₂ m) :=
    forall_congr' fun m => (clampUs_eq_iff (hnum m).1 (hnum m).2).symm
  have hreact : ∀ y, (motorMix t p r y).ccwReaction =
      (clampUs (mixSums t p r y motorFl) + clampUs (mixSums t p r y motorRr) : ℤ) -
        (clampUs (mixSums t p r y motorFr) + clampUs (mixSums t p r y motorRl)) := fun _ => rfl
  have hfl' := clampUs_le_of_le hfl
  have hfr' := clampUs_le_of_le hfr
  have hrl' := clampUs_le_of_le hrl
  have hrr' := clampUs_le_of_le hrr
  rw [heq, hreact, hreact]
  constructor
  · intro hge
    have h1 := le_antisymm (by omega) hfl'
    have h2 := le_antisymm hfr' (by omega)
    have h3 := le_antisymm hrl' (by omega)
    have h4 := le_antisymm (by omega) hrr'
    intro m
    fin_cases m
    · exact h1
    · exact h2
    · exact h3
    · exact h4
  · intro hm
    rw [hm motorFl, hm motorFr, hm motorRl, hm motorRr]

/-- Yaw outputs of one value give the same sums, up to the sign of a zero. -/
theorem mixSums_congr (hp : p.IsFinite) (hr : r.IsFinite) (h₁ : y₁.IsFinite) (h₂ : y₂.IsFinite)
    (h : y₁.val = y₂.val) (m : Motor) (n : ℤ) :
    ofInt n ≤ mixSums t p r y₁ m ↔ ofInt n ≤ mixSums t p r y₂ m := by
  obtain ⟨hfl, hfr, hrl, hrr⟩ := mixSums_yaw (t := t) hp hr h₁ h₂ h.le
  obtain ⟨hfl', hfr', hrl', hrr'⟩ := mixSums_yaw (t := t) hp hr h₂ h₁ h.ge
  fin_cases m
  · exact ⟨fun hn => Flt.le_trans hn hfl', fun hn => Flt.le_trans hn hfl⟩
  · exact ⟨fun hn => Flt.le_trans hn hfr, fun hn => Flt.le_trans hn hfr'⟩
  · exact ⟨fun hn => Flt.le_trans hn hrl, fun hn => Flt.le_trans hn hrl'⟩
  · exact ⟨fun hn => Flt.le_trans hn hrr', fun hn => Flt.le_trans hn hrr⟩

end Mix

/-! ## The yaw PID without integral and derivative -/

section Pid

variable {p : PidState CFloat} {setpoint rate dt : CFloat}

/-- A purely proportional step: the two other terms are zeros. -/
structure ProportionalStep (p : PidState CFloat) (setpoint rate dt : CFloat) : Prop where
  pid : PidOk p
  kp : p.kp.IsFinite ∧ ofRat 0 < p.kp
  ki : p.ki.IsZero
  kd : p.kd.IsZero
  setpoint : Bounded 8 setpoint
  rate : Bounded 8 rate
  dt : DtOk dt

theorem ProportionalStep.bounded_error (h : ProportionalStep p setpoint rate dt) :
    Bounded 9 (pidError setpoint rate) :=
  h.setpoint.sub (by decide) (by decide) h.rate

theorem ProportionalStep.key_output (h : ProportionalStep p setpoint rate dt) :
    (pidUpdate p setpoint rate dt).2.key =
      (clampSym (p.kp * (setpoint - rate)) p.outputLimit).key := by
  have he := h.bounded_error
  have hP : (p.kp * pidError setpoint rate).IsNum := h.kp.1.mul_isNum he.isFinite
  have hI : (p.ki * pidIntegral p (pidError setpoint rate) dt).IsZero :=
    (h.ki.bounded 0).isFinite.mul_isZero (isZero_pidIntegral h.pid he h.dt)
  have hD : (pidDTerm p (pidError setpoint rate) dt).IsZero := by
    unfold pidDTerm
    rw [if_pos h.dt.pos]
    exact h.kd.mul_finite (bounded_derivative h.pid he h.dt).isFinite
  have hPI : (p.kp * pidError setpoint rate +
      p.ki * pidIntegral p (pidError setpoint rate) dt).IsNum :=
    hP.add_finite (hI.bounded 0).isFinite
  refine key_clampSym p.outputLimit ?_
  show (p.kp * pidError setpoint rate + _ + _).key = _
  rw [key_add_isZero hPI hD, key_add_isZero hP hI]
  rfl

theorem PidOk.outputLimit_val (h : PidOk p) : 0 ≤ p.outputLimit.val := by
  have hf := h.outputLimit.isFinite
  have hle := (le_iff_val hf.neg hf).1 h.outputLimit_nonneg
  rw [hf.val_neg] at hle
  linarith

theorem clampSym_isFinite {x : CFloat} (h : PidOk p) (hx : x.IsNum) :
    (clampSym x p.outputLimit).IsFinite := by
  obtain ⟨h1, h2⟩ := clampSym_mem hx h.outputLimit_nonneg
  exact IsFinite.of_between h.outputLimit.isFinite.neg h.outputLimit.isFinite h1 h2

theorem clampSym_le_zero {x : CFloat} (h : PidOk p) (hx : x ≤ ofRat 0) :
    (clampSym x p.outputLimit).val ≤ 0 := by
  have hnum := (isNum_of_le hx).1
  have hf := clampSym_isFinite h hnum
  have hlim := h.outputLimit.isFinite
  have hz : (ofRat 0 : CFloat).IsZero := isZero_ofRat_zero
  have hzf := (hz.bounded 0).isFinite
  unfold clampSym at hf ⊢
  split_ifs at hf ⊢ with h1 h2
  · -- the limit is not below zero, so it is below `x` only when it is a zero itself
    have hle := (le_iff_val hlim hzf).1 (Flt.le_trans (Flt.le_of_lt h1) hx)
    rwa [hz.val] at hle
  · rw [hlim.val_neg, neg_nonpos]
    exact h.outputLimit_val
  · have hle := (le_iff_val hf hzf).1 hx
    rwa [hz.val] at hle

/-- At `yaw_rate = yaw_sp` the output is a zero. -/
theorem val_clampSym_zero {x : CFloat} (h : PidOk p) (hx : x.IsZero) :
    (clampSym x p.outputLimit).val = 0 := by
  have hxf := (hx.bounded 0).isFinite
  have hlim := h.outputLimit.isFinite
  have h0 := h.outputLimit_val
  unfold clampSym
  rw [if_neg, if_neg]
  · exact hx.val
  · rw [lt_iff_not_le hxf.isNum hlim.neg.isNum, not_not, le_iff_val hlim.neg hxf, hlim.val_neg,
      hx.val]
    linarith
  · rw [lt_iff_not_le hlim.isNum hxf.isNum, not_not, le_iff_val hxf hlim, hx.val]
    exact h0

theorem ProportionalStep.output (h : ProportionalStep p setpoint rate dt) :
    (clampSym (p.kp * (setpoint - rate)) p.outputLimit).IsFinite ∧
      (pidUpdate p setpoint rate dt).2.IsFinite ∧
      (pidUpdate p setpoint rate dt).2.val =
        (clampSym (p.kp * (setpoint - rate)) p.outputLimit).val := by
  have hP : (p.kp * (setpoint - rate)).IsNum := h.kp.1.mul_isNum h.bounded_error.isFinite
  have hf := clampSym_isFinite h.pid hP
  exact ⟨hf, hf.of_key_eq h.key_output⟩

/-- A craft that turns faster than its setpoint gets an output that is not positive. -/
theorem ProportionalStep.output_nonpos (h : ProportionalStep p setpoint rate dt)
    (hlt : setpoint < rate) : (pidUpdate p setpoint rate dt).2.val ≤ 0 := by
  have hs := h.setpoint.isFinite
  have hr := h.rate.isFinite
  have hval := (le_iff_val hs hr).1 (Flt.le_of_lt hlt)
  have hz : (ofRat 0 : CFloat).IsZero := isZero_ofRat_zero
  have hef : (setpoint - rate).IsFinite := h.bounded_error.isFinite
  have he : (setpoint - rate).val ≤ 0 := by
    have hle : setpoint - rate ≤ (ofRat 0 : CFloat) := val_sub_le_zero hs hr hval
    rwa [le_iff_val hef (hz.bounded 0).isFinite, hz.val] at hle
  rw [h.output.2.2]
  exact clampSym_le_zero h.pid (mul_le_zero h.kp.1 h.kp.2 hef he)

theorem ProportionalStep.output_at_setpoint (h : ProportionalStep p setpoint rate dt) :
    (pidUpdate p setpoint setpoint dt).2.IsFinite ∧
      (pidUpdate p setpoint setpoint dt).2.val = 0 := by
  have h' : ProportionalStep p setpoint setpoint dt := { h with rate := h.setpoint }
  have hzero : (p.kp * (setpoint - setpoint)).IsZero :=
    h.kp.1.mul_isZero (sub_self_isZero h.setpoint.isFinite)
  rw [h'.output.2.2]
  exact ⟨h'.output.2.1, val_clampSym_zero h.pid hzero⟩

end Pid

/-! ## The law -/

/-- The yaw loop acts in the documented direction exactly when it does not act: between two yaw
outputs, and between a craft that turns too fast and one that turns as commanded. -/
theorem yaw_direction_iff {t : ℤ} {p r : CFloat} (hp : p.IsFinite) (hr : r.IsFinite) :
    (∀ y₁ y₂ : CFloat, y₁.IsFinite → y₂.IsFinite → y₁ < y₂ →
      ((motorMix t p r y₁).ccwReaction ≤ (motorMix t p r y₂).ccwReaction ↔
        YawUnfelt t p r y₁ y₂)) ∧
    (∀ (pid : PidState CFloat) (yawSp yawRate dt : CFloat),
      ProportionalStep pid yawSp yawRate dt → yawSp < yawRate →
      ((motorMix t p r (pidUpdate pid yawSp yawRate dt).2).ccwReaction ≤
          (motorMix t p r (pidUpdate pid yawSp yawSp dt).2).ccwReaction ↔
        YawUnfelt t p r (clampSym (pid.kp * (yawSp - yawRate)) pid.outputLimit) (ofRat 0))) := by
  constructor
  · intro y₁ y₂ h₁ h₂ hlt
    exact ccwReaction_yaw hp hr h₁ h₂ ((le_iff_val h₁ h₂).1 (Flt.le_of_lt hlt))
  · intro pid yawSp yawRate dt h hlt
    obtain ⟨hcl, hout, hval⟩ := h.output
    obtain ⟨hout', hval'⟩ := h.output_at_setpoint
    have hz : (ofRat 0 : CFloat).IsZero := isZero_ofRat_zero
    have hle : (pidUpdate pid yawSp yawRate dt).2.val ≤ (pidUpdate pid yawSp yawSp dt).2.val := by
      rw [hval']
      exact h.output_nonpos hlt
    rw [ccwReaction_yaw hp hr hout hout' hle]
    refine forall_congr' fun m => forall_congr' fun n => forall_congr' fun _ =>
      forall_congr' fun _ => ?_
    rw [mixSums_congr hp hr hout hcl hval,
      mixSums_congr hp hr hout' (hz.bounded 0).isFinite (hval'.trans hz.val.symm)]

theorem yaw_direction_iff_hover :
    ((motorMix 1250 (ofRat 0) (ofRat 0) (ofRat 0 : CFloat)).ccwReaction ≤
        (motorMix 1250 (ofRat 0) (ofRat 0) (ofRat (1 / 2) : CFloat)).ccwReaction ↔
      YawUnfelt 1250 (ofRat 0) (ofRat 0) (ofRat 0) (ofRat (1 / 2))) :=
  (yaw_direction_iff (by decide +kernel) (by decide +kernel)).1 _ _ (by decide +kernel)
    (by decide +kernel) (by decide +kernel)

/-- A yaw output of 10 instead of 0 takes 40 µs from the counter-clockwise reaction, and a craft that
turns counter-clockwise at 10 °/s under a setpoint of 0 is pushed further in that direction. -/
theorem yaw_direction_reversed :
    (¬ ∀ (t : ℤ) (p r y₁ y₂ : CFloat), p.IsFinite → r.IsFinite → y₁.IsFinite → y₂.IsFinite →
      y₁ < y₂ → (motorMix t p r y₁).ccwReaction ≤ (motorMix t p r y₂).ccwReaction) ∧
    ¬ ∀ (t : ℤ) (p r : CFloat) (pid : PidState CFloat) (yawSp yawRate dt : CFloat), p.IsFinite →
      r.IsFinite → ProportionalStep pid yawSp yawRate dt → yawSp < yawRate →
      (motorMix t p r (pidUpdate pid yawSp yawRate dt).2).ccwReaction ≤
        (motorMix t p r (pidUpdate pid yawSp yawSp dt).2).ccwReaction := by
  constructor
  · intro h
    have h1 := h 1250 (ofRat 0) (ofRat 0) (ofRat 0) (ofRat 10) (by decide +kernel)
      (by decide +kernel) (by decide +kernel) (by decide +kernel) (by decide +kernel)
    exact absurd h1 (by decide +kernel)
  · intro h
    have hstep : ProportionalStep (pidInit (ofRat 1) (ofRat 0) (ofRat 0)) (ofRat 0) (ofRat 10)
        (ofRat (1 / 100)) :=
      { pid := pidOk_pidInit _ _ _
        kp := ⟨by decide +kernel, by decide +kernel⟩
        ki := isZero_ofRat_zero
        kd := isZero_ofRat_zero
        setpoint := isZero_ofRat_zero.bounded 8
        rate := show Bounded 8 (ofRat 10 : CFloat) by decide +kernel
        dt := ⟨by decide +kernel, by decide +kernel, by decide +kernel⟩ }
    have h1 := h 1250 (ofRat 0) (ofRat 0) _ _ _ _ (by decide +kernel) (by decide +kernel) hstep
      (by decide +kernel)
    exact absurd h1 (by decide +kernel)

end EdnaDrone
