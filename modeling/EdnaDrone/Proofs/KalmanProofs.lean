import EdnaDrone.Imu
import EdnaDrone.Lib.Covariance
import Mathlib.Algebra.Order.Interval.Set.Instances
import Mathlib.Order.Interval.Set.UnorderedInterval

/-!
# The Kalman filter in exact arithmetic

The four stored entries are a covariance in the sense of `Lib.Cov`: a predict shears it and adds
noise, an update conditions it on a reading of the angle. The invariant of any run and a bound on
the bias variance that no run exceeds follow from that.
-/

namespace EdnaDrone

open Lib CNum

variable {K : Type} [Field K] {k : KalmanState K}

/-! ## The stored entries as a covariance -/

def KalmanState.quadForm (k : KalmanState K) (u v : K) : K :=
  u * (k.p00 * u + k.p01 * v) + v * (k.p10 * u + k.p11 * v)

def KalmanState.cov (k : KalmanState K) : Cov K := ⟨k.p00, k.p01, k.p11⟩

theorem quadForm_eq_form (h : k.p01 = k.p10) (u v : K) : k.quadForm u v = k.cov.form u v := by
  simp only [KalmanState.quadForm, Cov.form, KalmanState.cov, ← h]
  ring

theorem kalmanPredict_symm (h : k.p01 = k.p10) (gyroRate dt : K) :
    (kalmanPredict k gyroRate dt).p01 = (kalmanPredict k gyroRate dt).p10 := by
  simp only [kalmanPredict, h]

theorem kalmanCorrect_symm (h : k.p01 = k.p10) (accelAngle : K) :
    (kalmanCorrect k accelAngle).p01 = (kalmanCorrect k accelAngle).p10 := by
  simp only [kalmanCorrect, KalmanState.gain0, KalmanState.gain1, ← h]
  ring

/-- A predict moves the angle along the bias error and adds the process noise. -/
theorem kalmanPredict_cov (h : k.p01 = k.p10) (gyroRate dt : K) :
    (kalmanPredict k gyroRate dt).cov =
      (k.cov.shear (-dt)).addNoise (k.qAngle * dt) (k.qBias * dt) := by
  simp only [KalmanState.cov, kalmanPredict, Cov.shear, Cov.addNoise, ← h, Cov.mk.injEq]
  refine ⟨?_, ?_, trivial⟩
  · ring
  · ring

/-- An update conditions on the accelerometer's reading of the angle. -/
theorem kalmanCorrect_cov (h : k.p01 = k.p10) (accelAngle : K) :
    (kalmanCorrect k accelAngle).cov = k.cov.observe k.rMeasure := by
  simp only [KalmanState.cov, kalmanCorrect, KalmanState.gain0, KalmanState.gain1,
    KalmanState.innovationCov, Cov.observe, ← h]

/-! ## The invariant -/

variable [LinearOrder K]

/-- The time steps that the guard of `imu_task` lets through. -/
def KalmanSample.DtInRange (x : KalmanSample K) : Prop := 0 < x.dt ∧ x.dt ≤ 1 / 10

/-- The stored matrix is symmetric and positive semidefinite, with a nonpositive correlation. -/
structure KalmanState.CovarianceSound (k : KalmanState K) : Prop where
  symm : k.p01 = k.p10
  posSemidef : ∀ u v, 0 ≤ k.quadForm u v
  correlation : k.p01 ≤ 0

/-- The parameters are noise variances, that of the measurement being positive. -/
structure KalmanState.WellTuned (k : KalmanState K) : Prop where
  qAngle : 0 ≤ k.qAngle
  qBias : 0 ≤ k.qBias
  rMeasure : 0 < k.rMeasure

def KalmanState.InitTuned (k : KalmanState K) : Prop :=
  k.qAngle = 1 / 1000 ∧ k.qBias = 3 / 1000 ∧ k.rMeasure = 3 / 100

theorem KalmanState.WellTuned.predict (h : k.WellTuned) (gyroRate dt : K) :
    (kalmanPredict k gyroRate dt).WellTuned := ⟨h.qAngle, h.qBias, h.rMeasure⟩

theorem KalmanState.CovarianceSound.cov_posSemidef (h : k.CovarianceSound) :
    k.cov.PosSemidef := fun u v => quadForm_eq_form h.symm u v ▸ h.posSemidef u v

theorem KalmanState.CovarianceSound.p00_nonneg (h : k.CovarianceSound) : 0 ≤ k.p00 :=
  h.cov_posSemidef.xx_nonneg

theorem KalmanState.CovarianceSound.p11_nonneg (h : k.CovarianceSound) : 0 ≤ k.p11 :=
  h.cov_posSemidef.yy_nonneg

theorem kalmanInit_initTuned [FloorRing K] : (kalmanInit : KalmanState K).InitTuned := by
  refine ⟨?_, ?_, ?_⟩ <;> simp [kalmanInit, ofRat_exact]

theorem kalmanInit_sound [FloorRing K] : (kalmanInit : KalmanState K).CovarianceSound := by
  have h0 : (ofRat 0 : K) = 0 := Rat.cast_zero
  refine ⟨rfl, ?_, ?_⟩
  · intro u v
    simp [KalmanState.quadForm, kalmanInit, h0]
  · simp [kalmanInit, h0]

variable [IsStrictOrderedRing K]

theorem rMeasure_le_innovationCov (h : k.CovarianceSound) : k.rMeasure ≤ k.innovationCov := by
  have h1 := h.p00_nonneg
  unfold KalmanState.innovationCov
  linarith

theorem innovationCov_pos (h : k.CovarianceSound) (ht : k.WellTuned) : 0 < k.innovationCov :=
  ht.rMeasure.trans_le (rMeasure_le_innovationCov h)

theorem gain0_mem (h : k.CovarianceSound) (ht : k.WellTuned) : 0 ≤ k.gain0 ∧ k.gain0 < 1 := by
  have hS := innovationCov_pos h ht
  refine ⟨div_nonneg h.p00_nonneg hS.le, (div_lt_one hS).2 ?_⟩
  have h1 := ht.rMeasure
  unfold KalmanState.innovationCov
  linarith

theorem gain1_nonpos (h : k.CovarianceSound) (ht : k.WellTuned) : k.gain1 ≤ 0 :=
  div_nonpos_of_nonpos_of_nonneg (h.symm ▸ h.correlation) (innovationCov_pos h ht).le

theorem kalmanPredict_sound (h : k.CovarianceSound) (ht : k.WellTuned) {dt : K} (hdt : 0 ≤ dt)
    (gyroRate : K) : (kalmanPredict k gyroRate dt).CovarianceSound := by
  have hsymm := kalmanPredict_symm h.symm gyroRate dt
  refine ⟨hsymm, ?_, ?_⟩
  · intro u v
    rw [quadForm_eq_form hsymm, kalmanPredict_cov h.symm]
    exact (h.cov_posSemidef.shear _).addNoise (mul_nonneg ht.qAngle hdt)
      (mul_nonneg ht.qBias hdt) u v
  · have h1 := mul_nonneg hdt h.p11_nonneg
    have h2 := h.correlation
    show k.p01 - dt * k.p11 ≤ 0
    linarith

theorem kalmanCorrect_sound (h : k.CovarianceSound) (ht : k.WellTuned) (accelAngle : K) :
    (kalmanCorrect k accelAngle).CovarianceSound := by
  have hsymm := kalmanCorrect_symm h.symm accelAngle
  refine ⟨hsymm, ?_, ?_⟩
  · intro u v
    rw [quadForm_eq_form hsymm, kalmanCorrect_cov h.symm]
    exact h.cov_posSemidef.observe ht.rMeasure u v
  · obtain ⟨-, h1⟩ := gain0_mem h ht
    have h2 : (1 - k.gain0) * k.p01 ≤ 0 :=
      mul_nonpos_of_nonneg_of_nonpos (by linarith) h.correlation
    show k.p01 - k.gain0 * k.p01 ≤ 0
    linarith

/-- The new angle is a convex combination of the predicted angle and the measurement. -/
theorem kalmanCorrect_angle_mem (h : k.CovarianceSound) (ht : k.WellTuned) (accelAngle : K) :
    (kalmanCorrect k accelAngle).angle ∈ Set.uIcc k.angle accelAngle := by
  obtain ⟨h0, h1⟩ := gain0_mem h ht
  show k.angle + k.gain0 * (accelAngle - k.angle) ∈ _
  rw [Set.mem_uIcc]
  rcases le_total k.angle accelAngle with hle | hle
  · left
    have h2 := mul_nonneg h0 (sub_nonneg.2 hle)
    have h3 := mul_nonneg (sub_nonneg.2 h1.le) (sub_nonneg.2 hle)
    constructor <;> linarith
  · right
    have h2 := mul_nonneg h0 (sub_nonneg.2 hle)
    have h3 := mul_nonneg (sub_nonneg.2 h1.le) (sub_nonneg.2 hle)
    constructor <;> linarith

/-! ## Runs -/

/-- The noise that a step of `dt` adds to the two estimates under this tuning, and that of a reading. -/
abbrev angleNoise {F : Type} [Field F] (dt : F) : F := 1 / 1000 * dt

abbrev biasNoise {F : Type} [Field F] (dt : F) : F := 3 / 1000 * dt

abbrev measureNoise {F : Type} [Field F] : F := 3 / 100

theorem KalmanState.InitTuned.wellTuned (h : k.InitTuned) : k.WellTuned := by
  obtain ⟨h1, h2, h3⟩ := h
  constructor
  · rw [h1]; norm_num
  · rw [h2]; norm_num
  · rw [h3]; norm_num

/-- What every reachable state satisfies. -/
def KalmanState.Sound (k : KalmanState K) : Prop := k.InitTuned ∧ k.CovarianceSound

theorem sound_kalmanStep {x : KalmanSample K} (h : k.Sound) (hx : x.DtInRange) :
    (kalmanStep k x).Sound := by
  obtain ⟨ht, hs⟩ := h
  have hp := kalmanPredict_sound hs ht.wellTuned hx.1.le x.gyroRate
  exact ⟨ht, kalmanCorrect_sound hp (ht.wellTuned.predict _ _) x.accelAngle⟩

variable [FloorRing K]

theorem sound_kalmanRun {xs : List (KalmanSample K)} (h : ∀ x ∈ xs, x.DtInRange) :
    (kalmanRun xs).Sound :=
  (allSteps_of_forall h).invariant KalmanState.Sound ⟨kalmanInit_initTuned, kalmanInit_sound⟩
    fun _ _ hx hs => sound_kalmanStep hs hx

/-- The covariance stays sound through both phases of every call, the gains stay in their ranges
and no call divides by zero. -/
theorem kalman_covariance_sound (xs : List (KalmanSample K)) (x : KalmanSample K)
    (hxs : ∀ y ∈ xs, y.DtInRange) (hx : x.DtInRange) :
    let pre := kalmanPredict (kalmanRun xs) x.gyroRate x.dt
    let post := kalmanRun (xs ++ [x])
    pre.CovarianceSound ∧ post.CovarianceSound ∧
      (0 < pre.rMeasure ∧ pre.rMeasure ≤ pre.innovationCov) ∧
      (0 ≤ pre.gain0 ∧ pre.gain0 < 1 ∧ pre.gain1 ≤ 0) ∧
      post.angle ∈ Set.uIcc pre.angle x.accelAngle := by
  intro pre post
  obtain ⟨ht, hs⟩ := sound_kalmanRun hxs
  have hpost : post = kalmanCorrect pre x.accelAngle := by
    show runFrom kalmanStep kalmanInit (xs ++ [x]) = _
    rw [runFrom_append]
    rfl
  have htp : pre.WellTuned := ht.wellTuned.predict _ _
  have hp : pre.CovarianceSound := kalmanPredict_sound hs ht.wellTuned hx.1.le x.gyroRate
  obtain ⟨h0, h1⟩ := gain0_mem hp htp
  rw [hpost]
  exact ⟨hp, kalmanCorrect_sound hp htp x.accelAngle,
    ⟨htp.rMeasure, rMeasure_le_innovationCov hp⟩, ⟨h0, h1, gain1_nonpos hp htp⟩,
    kalmanCorrect_angle_mem hp htp x.accelAngle⟩

/-- Two calls a hundredth and a tenth of a second long. -/
def firstSample : KalmanSample ℚ := ⟨1, 2, 1 / 100⟩
def secondSample : KalmanSample ℚ := ⟨-3, 5, 1 / 10⟩

theorem dtInRange_samples : firstSample.DtInRange ∧ secondSample.DtInRange := by
  norm_num [KalmanSample.DtInRange, firstSample, secondSample]

theorem kalman_covariance_sound_two_calls :
    let pre := kalmanPredict (kalmanRun [firstSample]) secondSample.gyroRate secondSample.dt
    let post := kalmanRun [firstSample, secondSample]
    pre.CovarianceSound ∧ post.CovarianceSound ∧
      (0 < pre.rMeasure ∧ pre.rMeasure ≤ pre.innovationCov) ∧
      (0 ≤ pre.gain0 ∧ pre.gain0 < 1 ∧ pre.gain1 ≤ 0) ∧
      post.angle ∈ Set.uIcc pre.angle secondSample.accelAngle :=
  kalman_covariance_sound [firstSample] secondSample (by simpa using dtInRange_samples.1)
    dtInRange_samples.2

/-! ## `imu_task` -/

theorem guardedDt_mem (nowUs lastUs : UInt32) :
    0 < (guardedDt nowUs lastUs : K) ∧ (guardedDt nowUs lastUs : K) ≤ 1 / 10 := by
  unfold guardedDt
  dsimp only
  split_ifs with h
  · rw [ofRat_exact]
    norm_num
  · have h0 : (ofRat 0 : K) = 0 := Rat.cast_zero
    have h1 : (ofRat (1 / 10) : K) = 1 / 10 := by
      rw [ofRat_exact]
      norm_num
    rw [h0, h1] at h
    push Not at h
    exact h

/-- Both filters of `imu_task` are sound in every state of every run of its loop. -/
theorem imuTask_sound (nowUs : UInt32) (es : List (UInt32 × Option (Mpu6050Data K))) :
    let t := runFrom (fun t e => (imuTaskIteration t e.1 e.2).1) (imuTaskStart nowUs) es
    t.kfPitch.Sound ∧ t.kfRoll.Sound := by
  refine runFrom_invariant (fun t : ImuTask K => t.kfPitch.Sound ∧ t.kfRoll.Sound)
    ⟨⟨kalmanInit_initTuned, kalmanInit_sound⟩, ⟨kalmanInit_initTuned, kalmanInit_sound⟩⟩ ?_ es
  rintro t ⟨now, raw⟩ ⟨hp, hr⟩
  cases raw with
  | none => exact ⟨hp, hr⟩
  | some raw =>
    exact ⟨sound_kalmanStep (x := ⟨raw.accelAngleRoll, raw.gyroYDps, guardedDt now t.lastUs⟩) hp
        (guardedDt_mem now t.lastUs),
      sound_kalmanStep (x := ⟨raw.accelAnglePitch, raw.gyroXDps, guardedDt now t.lastUs⟩) hr
        (guardedDt_mem now t.lastUs)⟩

/-! ## The bias variance stays bounded -/

/-- A covariance that no run exceeds. Its correlation is negative: a bias error shows in the angle,
and the readings of the angle take it back. -/
def covBound : Cov K := ⟨(2 : ℕ), -1, (3 : ℕ)⟩

/-- One step keeps the bound. The estimator of the proof has the gain `(h, -h)` for a time step `h`:
it cancels the growth of the bound to first order in `h` with a margin of `h` times a dominated
form. -/
theorem covBound_step {h : K} (h0 : 0 < h) (h1 : h ≤ 1 / 10) (u v : K) :
    ((covBound.shear (-h)).addNoise (1 / 1000 * h) (3 / 1000 * h)).form (u - h * (u - v)) v +
      3 / 100 * (h * (u - v)) ^ 2 ≤ covBound.form u v := by
  let margin : Cov K :=
    { xx := 1999 / 1000 - 257 / 250 * h + 3999 / 1000 * h ^ 2 - 3 * h ^ 3
      xy := (-2971 / 500 * h - 999 / 500 * h ^ 2 + 6 * h ^ 3) / 2
      yy := 1997 / 1000 + 397 / 100 * h - 2001 / 1000 * h ^ 2 - 3 * h ^ 3 }
  have hdiff : covBound.form u v -
      (((covBound.shear (-h)).addNoise (1 / 1000 * h) (3 / 1000 * h)).form (u - h * (u - v)) v +
        3 / 100 * (h * (u - v)) ^ 2) = h * margin.form u v := by
    simp only [Cov.form, Cov.shear, Cov.addNoise, covBound, margin, Nat.cast_ofNat]
    ring
  have h2 : 0 ≤ h ^ 2 ∧ h ^ 2 ≤ (1 / 10) ^ 2 := ⟨by positivity, pow_le_pow_left₀ h0.le h1 2⟩
  have h3 : 0 ≤ h ^ 3 ∧ h ^ 3 ≤ (1 / 10) ^ 3 := ⟨by positivity, pow_le_pow_left₀ h0.le h1 3⟩
  have hm : 0 ≤ margin.form u v := by
    apply Cov.form_nonneg_of_dominant (m := 1)
    · show (1 : K) ≤ 1999 / 1000 - 257 / 250 * h + 3999 / 1000 * h ^ 2 - 3 * h ^ 3
      linarith
    · show (1 : K) ≤ 1997 / 1000 + 397 / 100 * h - 2001 / 1000 * h ^ 2 - 3 * h ^ 3
      linarith
    · show |(-2971 / 500 * h - 999 / 500 * h ^ 2 + 6 * h ^ 3) / 2| ≤ 1
      rw [abs_le]
      constructor <;> linarith
  have h4 := mul_nonneg h0.le hm
  linarith

theorem below_covBound_kalmanStep {x : KalmanSample K} (h : k.Sound) (hb : k.cov.Below covBound)
    (hx : x.DtInRange) : (kalmanStep k x).cov.Below covBound := by
  obtain ⟨htuned, hs⟩ := h
  have ht := htuned.wellTuned
  obtain ⟨hq, hqb, hr⟩ := htuned
  intro u v
  have hp := kalmanPredict_sound hs ht hx.1.le x.gyroRate
  have hS : 0 < (kalmanPredict k x.gyroRate x.dt).cov.xx + k.rMeasure :=
    innovationCov_pos hp (ht.predict _ _)
  have h1 : (kalmanStep k x).cov = (kalmanPredict k x.gyroRate x.dt).cov.observe k.rMeasure :=
    kalmanCorrect_cov hp.symm x.accelAngle
  rw [h1]
  -- the filter's estimate is at least as good as the one of `covBound_step`
  refine (Cov.form_observe_le hS u v (x.dt * (u - v))).trans ?_
  rw [kalmanPredict_cov hs.symm, Cov.form_addNoise, Cov.form_shear, hq, hqb, hr]
  have h2 := hb (u - x.dt * (u - v)) (v + -x.dt * (u - x.dt * (u - v)))
  have h3 := covBound_step hx.1 hx.2 u v
  rw [Cov.form_addNoise, Cov.form_shear] at h3
  linarith

theorem below_covBound_kalmanRun {xs : List (KalmanSample K)} (h : ∀ x ∈ xs, x.DtInRange) :
    (kalmanRun xs).cov.Below covBound := by
  have h0 : (kalmanInit : KalmanState K).cov.Below covBound := by
    intro u v
    have hz : (ofRat 0 : K) = 0 := Rat.cast_zero
    have h1 : (kalmanInit : KalmanState K).cov.form u v = 0 := by
      simp [Cov.form, KalmanState.cov, kalmanInit, hz]
    rw [h1]
    apply Cov.form_nonneg_of_dominant (m := 1) <;> norm_num [covBound]
  refine ((allSteps_of_forall h).invariant (fun k : KalmanState K => k.Sound ∧ k.cov.Below covBound)
    ⟨⟨kalmanInit_initTuned, kalmanInit_sound⟩, h0⟩ ?_).2
  rintro k x hx ⟨hs, hb⟩
  exact ⟨sound_kalmanStep hs hx, below_covBound_kalmanStep hs hb hx⟩

theorem kalmanCorrect_p00_lt (h : k.CovarianceSound) (ht : k.WellTuned) (accelAngle : K) :
    (kalmanCorrect k accelAngle).p00 < k.rMeasure := by
  have hS := innovationCov_pos h ht
  show k.p00 - k.p00 / (k.p00 + k.rMeasure) * k.p00 < k.rMeasure
  have hS' : 0 < k.p00 + k.rMeasure := hS
  have h1 : k.p00 - k.p00 / (k.p00 + k.rMeasure) * k.p00 =
      k.rMeasure - k.rMeasure ^ 2 / (k.p00 + k.rMeasure) := by
    field_simp
    ring
  have h2 : 0 < k.rMeasure ^ 2 / (k.p00 + k.rMeasure) := div_pos (pow_pos ht.rMeasure 2) hS'
  linarith

/-- After every call the bias variance is at most `3` and the angle variance below that of the
measurement, however long the run and whatever its time steps. -/
theorem kalman_variances_bounded (xs : List (KalmanSample K)) (x : KalmanSample K)
    (hxs : ∀ y ∈ xs, y.DtInRange) (hx : x.DtInRange) :
    (kalmanRun (xs ++ [x])).p11 ≤ 3 ∧
      (kalmanRun (xs ++ [x])).p00 < (kalmanRun (xs ++ [x])).rMeasure := by
  constructor
  · refine (below_covBound_kalmanRun ?_).yy_le
    intro y hy
    rcases List.mem_append.1 hy with h | h
    · exact hxs y h
    · exact List.mem_singleton.1 h ▸ hx
  · obtain ⟨ht, hs⟩ := sound_kalmanRun hxs
    have hp := kalmanPredict_sound hs ht.wellTuned hx.1.le x.gyroRate
    have h1 := kalmanCorrect_p00_lt hp (ht.wellTuned.predict _ _) x.accelAngle
    rw [kalmanRun, runFrom_append]
    exact h1

theorem kalman_variances_bounded_two_calls :
    (kalmanRun [firstSample, secondSample]).p11 ≤ 3 ∧
      (kalmanRun [firstSample, secondSample]).p00 <
        (kalmanRun [firstSample, secondSample]).rMeasure :=
  kalman_variances_bounded [firstSample] secondSample (by simpa using dtInRange_samples.1)
    dtInRange_samples.2

end EdnaDrone
