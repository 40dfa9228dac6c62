import EdnaDrone.FlightController
import EdnaDrone.Controller
import EdnaDrone.Imu
import EdnaDrone.Lib.FltOrder

/-!
# The control arithmetic over C's `float`

Where each value of a control step can be an infinity or a NaN. Errors and derivatives are bounded by
powers of two, so with finite gains the only operation that can yield a NaN is the last addition of
`pid_update`, of a proportional and a derivative term that have both overflowed.
-/

namespace EdnaDrone

open Lib CNum

open Lib.Flt hiding ofRat abs

/-! ## Constants -/

theorem bounded_ofInt {k : ℤ} (hk : -149 ≤ k) (hk' : k < 128) {n : ℤ} (h : |(n : ℚ)| ≤ 2 ^ k) :
    Bounded k (ofInt n : CFloat) := bounded_ofRat hk hk' h

theorem isNum_ofInt (n : ℤ) : (ofInt n : CFloat).IsNum := ofSign_isNum _ _

theorem val_ofInt {n : ℤ} (h : |n| ≤ 2 ^ 24) :
    (ofInt n : CFloat).IsFinite ∧ (ofInt n : CFloat).val = n := by
  have habs : |(n : ℚ)| = |((n : ℤ) : ℚ) * 2 ^ (0 : ℤ)| := by rw [zpow_zero, mul_one]
  have hle : |(n : ℚ)| ≤ 2 ^ 24 := by exact_mod_cast h
  refine val_ofRat_of_representable ?_ (hle.trans_lt ?_)
  · rw [habs]
    apply FloatFormat.representable_abs_mul (by decide)
    rw [← habs]
    exact hle
  · show (2 : ℚ) ^ 24 < 2 ^ (128 : ℤ)
    norm_num

theorem plus_ofInt {n : ℕ} (h : n < 2 ^ 32) : (ofInt n : CFloat).Plus := by
  have hfin : (ofInt n : CFloat).IsFinite := by
    have hb : Bounded 32 (ofInt n : CFloat) := by
      apply bounded_ofInt (by norm_num) (by norm_num)
      rw [abs_of_nonneg (by positivity)]
      exact_mod_cast h.le
    exact hb.isFinite
  have hsign : (ofInt n : CFloat) = ofSign false n := by
    show Flt.ofRat ((n : ℤ) : ℚ) = _
    unfold Flt.ofRat
    rw [decide_eq_false (by simp), Int.cast_natCast]
  rw [hsign] at hfin ⊢
  exact plus_ofSign hfin

/-! ## Sticks and gyro -/

theorem bounded_applyDeadband {raw : ℤ} (h : |raw| ≤ stickMax) :
    Bounded 9 (applyDeadband raw : CFloat) := by
  unfold applyDeadband
  split
  · exact isZero_ofRat_zero.bounded 9
  · apply bounded_ofInt (by norm_num) (by norm_num)
    rw [← Int.cast_abs]
    exact_mod_cast h

theorem bounded_stick_div {raw : ℤ} (h : |raw| ≤ stickMax) :
    Bounded 0 (applyDeadband raw / ofInt stickMax : CFloat) := by
  have hs : (2 : ℚ) ^ (9 : ℤ) ≤ |(ofInt stickMax : CFloat).val| := by decide +kernel
  exact (bounded_applyDeadband h).div (k := 9) (by decide) (by decide) (by decide +kernel) hs

theorem bounded_normalizeAngle {raw : ℤ} (h : |raw| ≤ stickMax) :
    Bounded 8 (normalizeAngle raw : CFloat) := by
  have hb : Bounded 5 (ofRat angleSetpointMax : CFloat) := by decide +kernel
  exact ((bounded_stick_div h).mul (k := 5) (by decide) (by decide) hb).mono (by decide)

theorem bounded_normalizeYaw {raw : ℤ} (h : |raw| ≤ stickMax) :
    Bounded 8 (normalizeYaw raw : CFloat) := by
  have hb : Bounded 7 (ofRat yawRateMax : CFloat) := by decide +kernel
  exact ((bounded_stick_div h).mul (k := 7) (by decide) (by decide) hb).mono (by decide)

theorem bounded_gyroDps {raw : ℤ} (h : -2 ^ 15 ≤ raw ∧ raw < 2 ^ 15) :
    Bounded 8 (gyroDps raw : CFloat) := by
  have hraw : Bounded 15 (ofInt raw : CFloat) := by
    apply bounded_ofInt (by norm_num) (by norm_num)
    rw [← Int.cast_abs]
    have h1 : |raw| ≤ 2 ^ 15 := abs_le.2 ⟨h.1, h.2.le⟩
    exact_mod_cast h1
  have hs : (2 : ℚ) ^ (7 : ℤ) ≤ |(ofRat 131 : CFloat).val| := by decide +kernel
  exact (hraw.div (k := 7) (by decide) (by decide) (by decide +kernel) hs).neg

/-! ## The time step -/

/-- A guarded time step is finite and at least `2 ^ -20` seconds. -/
structure DtOk (dt : CFloat) : Prop where
  bounded : Bounded 0 dt
  large : (2 : ℚ) ^ (-20 : ℤ) ≤ |dt.val|
  pos : ofRat 0 < dt

theorem dtOk_guardedDt (nowUs lastUs : UInt32) : DtOk (guardedDt nowUs lastUs) := by
  unfold guardedDt
  dsimp only
  split_ifs with h
  · exact ⟨by decide +kernel, by decide +kernel, by decide +kernel⟩
  rw [not_or] at h
  generalize hn : (nowUs - lastUs).toNat = n at *
  have hlt : n < 2 ^ 32 := hn ▸ UInt32.toNat_lt _
  have hnum : Bounded 32 (ofInt n : CFloat) := by
    apply bounded_ofInt (by norm_num) (by norm_num)
    rw [abs_of_nonneg (by positivity)]
    exact_mod_cast hlt.le
  have hden : (2 : ℚ) ^ (19 : ℤ) ≤ |(ofRat 1000000 : CFloat).val| := by decide +kernel
  have hdiv : Bounded 13 (ofInt n / ofRat 1000000 : CFloat) :=
    hnum.div (k := 19) (by decide) (by decide) (by decide +kernel) hden
  have hzero : (ofRat 0 : CFloat).IsNum := (isZero_ofRat_zero.bounded 0).isFinite.isNum
  have htenth : Bounded 0 (ofRat (1 / 10) : CFloat) := by decide +kernel
  have hpos : ofRat 0 < (ofInt n / ofRat 1000000 : CFloat) := by
    by_contra hle
    exact h.1 (IsNum.le_of_not_lt hzero hdiv.isFinite.isNum hle)
  have hle : (ofInt n / ofRat 1000000 : CFloat) ≤ ofRat (1 / 10) :=
    IsNum.le_of_not_lt htenth.isFinite.isNum hdiv.isFinite.isNum h.2
  have hneg : -(ofRat (1 / 10) : CFloat) ≤ ofRat 0 := by decide +kernel
  have hn0 : n ≠ 0 := by
    rintro rfl
    exact absurd hpos (by decide +kernel)
  refine ⟨htenth.of_between (Flt.le_trans hneg (Flt.le_of_lt hpos)) hle, ?_, hpos⟩
  have hone : (2 : ℚ) ^ (0 : ℤ) ≤ |(ofInt n : CFloat).val| := by
    refine two_zpow_le_abs_ofRat (by decide) ?_ hnum.isFinite
    rw [abs_of_nonneg (by positivity), zpow_zero]
    exact_mod_cast Nat.one_le_iff_ne_zero.2 hn0
  have hval : (ofRat 1000000 : CFloat).val = 1000000 := by decide +kernel
  refine two_zpow_le_abs_div (by decide) hnum.isFinite (by decide +kernel) (by rw [hval]; norm_num)
    ?_ hdiv.isFinite
  rw [hval, abs_of_pos (by norm_num : (0 : ℚ) < 1000000), le_div_iff₀ (by norm_num)]
  refine le_trans ?_ hone
  norm_num

/-! ## `pid_update` -/

/-- A stored gain is finite and not negative. -/
def SaneGain (x : CFloat) : Prop := x.IsFinite ∧ ofInt 0 ≤ x

def PidState.SaneGains (p : PidState CFloat) : Prop :=
  SaneGain p.kp ∧ SaneGain p.ki ∧ SaneGain p.kd

/-- What holds of every PID of the flight controller whatever its gains are. The integral limit is
zero, so the integral is one of the two zeros. -/
structure PidOk (p : PidState CFloat) : Prop where
  integral : p.integral.IsZero
  prevError : Bounded 9 p.prevError
  integralLimit : p.integralLimit.IsZero
  outputLimit : Bounded 7 p.outputLimit
  outputLimit_nonneg : -p.outputLimit ≤ p.outputLimit

/-- The proportional and the derivative term have overflowed in opposite directions. -/
def PidState.TermsClash (p : PidState CFloat) (error dt : CFloat) : Prop :=
  ∃ s, p.kp * error = .inf s ∧ pidDTerm p error dt = .inf !s

variable {p : PidState CFloat} {error dt : CFloat}

theorem clampSym_isNum {x limit : CFloat} (hl : limit.IsNum) (hn : (-limit).IsNum) :
    (clampSym x limit).IsNum ↔ x.IsNum := by
  unfold clampSym
  constructor
  · rintro h rfl
    rw [if_neg (not_lt_nan _), if_neg (not_nan_lt _)] at h
    exact h rfl
  · intro hx
    split_ifs
    · exact hl
    · exact hn
    · exact hx

theorem clampSym_mem {x limit : CFloat} (hx : x.IsNum) (hl : -limit ≤ limit) :
    -limit ≤ clampSym x limit ∧ clampSym x limit ≤ limit := by
  obtain ⟨hn, hl'⟩ := isNum_of_le hl
  unfold clampSym
  split_ifs with h1 h2
  · exact ⟨hl, le_refl_of_isNum hl'⟩
  · exact ⟨le_refl_of_isNum hn, hl⟩
  · exact ⟨IsNum.le_of_not_lt hx hn h2, IsNum.le_of_not_lt hl' hx h1⟩

theorem key_clampSym {x y : CFloat} (limit : CFloat) (h : x.key = y.key) :
    (clampSym x limit).key = (clampSym y limit).key := by
  unfold clampSym
  have h1 : limit < x ↔ limit < y := lt_congr rfl h
  have h2 : x < -limit ↔ y < -limit := lt_congr h rfl
  by_cases hx : limit < x
  · rw [if_pos hx, if_pos (h1.1 hx)]
  rw [if_neg hx, if_neg (mt h1.2 hx)]
  by_cases hx' : x < -limit
  · rw [if_pos hx', if_pos (h2.1 hx')]
  · rw [if_neg hx', if_neg (mt h2.2 hx'), h]

theorem isZero_clampSym {x limit : CFloat} (hx : x.IsNum) (hl : limit.IsZero) :
    (clampSym x limit).IsZero := by
  unfold clampSym
  split_ifs with h1 h2
  · exact hl
  · exact hl.neg
  · exact hx.isZero hl h1 h2

/-- The limit of the integral is a zero, and so the integral stays one. -/
theorem isZero_pidIntegral_of_isNum (hint : p.integral.IsZero) (hlim : p.integralLimit.IsZero)
    (he : (error * dt).IsNum) : (pidIntegral p error dt).IsZero := by
  have hsum : (p.integral + error * dt).IsNum := by
    rw [add_isNum_iff (hint.bounded 0).isFinite.isNum he]
    rintro s hs -
    rw [hs] at hint
    exact hint
  exact isZero_clampSym hsum hlim

theorem isZero_pidIntegral (hp : PidOk p) (he : Bounded 9 error) (hd : DtOk dt) :
    (pidIntegral p error dt).IsZero := by
  have hprod : Bounded 9 (error * dt) := he.mul (k := 0) (by decide) (by decide) hd.bounded
  exact isZero_pidIntegral_of_isNum hp.integral hp.integralLimit hprod.isFinite.isNum

theorem bounded_derivative (hp : PidOk p) (he : Bounded 9 error) (hd : DtOk dt) :
    Bounded 30 ((error - p.prevError) / dt) :=
  (he.sub (by decide) (by decide) hp.prevError).div (k := -20) (by decide) (by decide)
    hd.bounded.isFinite hd.large

theorem isNum_pidDTerm (hp : PidOk p) (hg : p.SaneGains) (he : Bounded 9 error) (hd : DtOk dt) :
    (pidDTerm p error dt).IsNum := by
  unfold pidDTerm
  rw [if_pos hd.pos]
  exact hg.2.2.1.mul_isNum (bounded_derivative hp he hd).isFinite

/-- The sum of the three terms is a NaN exactly when two of them clash. -/
theorem pidRaw_isNum (hp : PidOk p) (hg : p.SaneGains) (he : Bounded 9 error) (hd : DtOk dt) :
    (pidRaw p error dt).IsNum ↔ ¬ p.TermsClash error dt := by
  have hP : (p.kp * error).IsNum := hg.1.1.mul_isNum he.isFinite
  have hI : (p.ki * pidIntegral p error dt).IsZero :=
    hg.2.1.1.mul_isZero (isZero_pidIntegral hp he hd)
  have hD := isNum_pidDTerm hp hg he hd
  have hPI : ∀ s, p.kp * error + p.ki * pidIntegral p error dt = .inf s ↔ p.kp * error = .inf s := by
    intro s
    -- the integral term is a zero and cannot make the sum overflow
    cases hx : p.kp * error with
    | nan => exact absurd hx hP
    | inf t =>
      cases hy : p.ki * pidIntegral p error dt with
      | fin u b => rfl
      | _ => rw [hy] at hI; exact hI.elim
    | fin t a =>
      refine iff_of_false ?_ (by simp)
      intro h
      have hfin := IsFinite.add_isZero (x := .fin t a) trivial hI
      rw [h] at hfin
      exact hfin
  unfold pidRaw PidState.TermsClash
  rw [add_isNum_iff (hP.add_finite (hI.bounded 0).isFinite) hD, not_exists]
  simp only [hPI, not_and, ne_eq]

/-- The output of `pid_update` is within its limit exactly when no two terms clash. -/
theorem pidUpdate_output_mem (hp : PidOk p) (hg : p.SaneGains) {setpoint measurement : CFloat}
    (he : Bounded 9 (pidError setpoint measurement)) (hd : DtOk dt) :
    (-p.outputLimit ≤ (pidUpdate p setpoint measurement dt).2 ∧
        (pidUpdate p setpoint measurement dt).2 ≤ p.outputLimit) ↔
      ¬ p.TermsClash (pidError setpoint measurement) dt := by
  obtain ⟨hn, hl⟩ := isNum_of_le hp.outputLimit_nonneg
  rw [← pidRaw_isNum hp hg he hd]
  constructor
  · intro h
    exact (clampSym_isNum hl hn).1 (isNum_of_le h.2).1
  · intro h
    exact clampSym_mem h hp.outputLimit_nonneg

theorem PidOk.pidUpdate (hp : PidOk p) {setpoint measurement : CFloat}
    (he : Bounded 9 (pidError setpoint measurement)) (hd : DtOk dt) :
    PidOk (pidUpdate p setpoint measurement dt).1 :=
  { hp with integral := isZero_pidIntegral hp he hd, prevError := he }

theorem PidOk.pidReset (hp : PidOk p) : PidOk (pidReset p) :=
  { hp with integral := isZero_ofRat_zero, prevError := isZero_ofRat_zero.bounded 9 }

theorem PidOk.pidSetGains (hp : PidOk p) (kp ki kd : CFloat) : PidOk (pidSetGains p kp ki kd) :=
  ⟨hp.integral, hp.prevError, hp.integralLimit, hp.outputLimit, hp.outputLimit_nonneg⟩

theorem pidOk_pidInit (kp ki kd : CFloat) : PidOk (pidInit kp ki kd) :=
  ⟨isZero_ofRat_zero, isZero_ofRat_zero.bounded 9, isZero_ofRat_zero, show Bounded 7 (ofRat 100 : CFloat) by decide +kernel,
    show -(ofRat 100 : CFloat) ≤ ofRat 100 by decide +kernel⟩

theorem pidOk_pidZero : PidOk pidZero :=
  ⟨isZero_ofRat_zero, isZero_ofRat_zero.bounded 9, isZero_ofRat_zero, isZero_ofRat_zero.bounded 7,
    show -(ofRat 0 : CFloat) ≤ ofRat 0 by decide +kernel⟩

/-! ## The mixer -/

/-- `clamp_us` converts the number to an integer only when it is between its limits. -/
def ConvertsInRange (val : CFloat) : Prop :=
  ¬ val < ofInt escPwmMinUs → ¬ ofInt escPwmMaxUs < val →
    ofInt escPwmMinUs ≤ val ∧ val ≤ ofInt escPwmMaxUs

theorem convertsInRange_of_isNum {val : CFloat} (h : val.IsNum) : ConvertsInRange val := by
  intro h1 h2
  exact ⟨IsNum.le_of_not_lt h (isNum_ofInt _) h1, IsNum.le_of_not_lt (isNum_ofInt _) h h2⟩

/-- The four sums that `motor_mix` clamps. -/
structure MixSumsConvert (throttleUs : ℤ) (pitch roll yaw : CFloat) : Prop where
  fl : ConvertsInRange (ofInt throttleUs + pitch + roll - yaw)
  fr : ConvertsInRange (ofInt throttleUs + pitch - roll + yaw)
  rl : ConvertsInRange (ofInt throttleUs - pitch + roll + yaw)
  rr : ConvertsInRange (ofInt throttleUs - pitch - roll - yaw)

/-- A throttle within the pulse limits and bounded outputs sum to numbers. -/
theorem mixSumsConvert {throttleUs : ℤ} {pitch roll yaw : CFloat}
    (ht : 0 ≤ throttleUs ∧ throttleUs ≤ escPwmFlightMaxUs) (hp : Bounded 7 pitch)
    (hr : Bounded 7 roll) (hy : Bounded 7 yaw) : MixSumsConvert throttleUs pitch roll yaw := by
  have hbase : Bounded 11 (ofInt throttleUs : CFloat) := by
    apply bounded_ofInt (by norm_num) (by norm_num)
    rw [← Int.cast_abs, abs_of_nonneg ht.1]
    have h1 : throttleUs ≤ 2 ^ 11 := ht.2.trans (by decide)
    exact_mod_cast h1
  have hp' := hp.mono (k := 11) (by decide)
  have hr' := hr.mono (k := 12) (by decide)
  have hy' := hy.mono (k := 13) (by decide)
  have h1 : Bounded 12 (ofInt throttleUs + pitch : CFloat) := hbase.add (by decide) (by decide) hp'
  have h2 : Bounded 12 (ofInt throttleUs - pitch : CFloat) := hbase.sub (by decide) (by decide) hp'
  have hadd : ∀ {x : CFloat}, Bounded 12 x →
      ConvertsInRange (x + roll - yaw) ∧ ConvertsInRange (x - roll + yaw) ∧
        ConvertsInRange (x + roll + yaw) ∧ ConvertsInRange (x - roll - yaw) := by
    intro x hx
    have ha : Bounded 13 (x + roll) := hx.add (by decide) (by decide) hr'
    have hs : Bounded 13 (x - roll) := hx.sub (by decide) (by decide) hr'
    exact ⟨convertsInRange_of_isNum (ha.sub (by decide) (by decide) hy').isFinite.isNum,
      convertsInRange_of_isNum (hs.add (by decide) (by decide) hy').isFinite.isNum,
      convertsInRange_of_isNum (ha.add (by decide) (by decide) hy').isFinite.isNum,
      convertsInRange_of_isNum (hs.sub (by decide) (by decide) hy').isFinite.isNum⟩
  exact ⟨(hadd h1).1, (hadd h1).2.1, (hadd h2).2.2.1, (hadd h2).2.2.2⟩

end EdnaDrone
