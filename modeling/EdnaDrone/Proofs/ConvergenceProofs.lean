import EdnaDrone.Lib.Tracking
import EdnaDrone.Proofs.KalmanProofs
import Mathlib

/-!
# The Kalman filter forgets where it started

Two filters with the same covariance that get the same samples differ by an error that their covariance
covers, and every call makes the factor smaller: the process noise is at least a share of the
covariance, which `covBound` bounds. The true angle and gyro bias follow the filter's equations
themselves while the readings are exact, so the estimates converge to them.
-/

namespace EdnaDrone

open Lib CNum

variable {K : Type} [Field K] {k k' : KalmanState K} {c : K} {x : KalmanSample K}

/-! ## Exact readings -/

/-- A turn at a rate for a time. -/
structure Turn (K : Type) where
  rate : K
  dt : K

def turnAngle (angle : K) (t : Turn K) : K := angle + t.dt * t.rate

/-- What the sensors read in a sequence of turns, if the accelerometer is exact and the gyro is off by a
constant bias. -/
def exactSamples (bias : K) : K → List (Turn K) → List (KalmanSample K)
  | _, [] => []
  | angle, t :: ts =>
    ⟨turnAngle angle t, t.rate + bias, t.dt⟩ :: exactSamples bias (turnAngle angle t) ts

/-- A filter with the true estimates keeps them. -/
theorem runFrom_exactSamples (bias : K) (ts : List (Turn K)) (h : k.bias = bias) :
    (runFrom kalmanStep k (exactSamples bias k.angle ts)).angle = runFrom turnAngle k.angle ts ∧
      (runFrom kalmanStep k (exactSamples bias k.angle ts)).bias = bias := by
  induction ts generalizing k with
  | nil => exact ⟨rfl, h⟩
  | cons t ts ih =>
    let x : KalmanSample K := ⟨turnAngle k.angle t, t.rate + bias, t.dt⟩
    have hpredict : (kalmanPredict k x.gyroRate x.dt).angle = turnAngle k.angle t := by
      show k.angle + t.dt * (t.rate + bias - k.bias) = k.angle + t.dt * t.rate
      rw [h]
      ring
    have hinnovation : x.accelAngle - (kalmanPredict k x.gyroRate x.dt).angle = 0 := by
      rw [hpredict]
      exact sub_self _
    have hangle : (kalmanStep k x).angle = turnAngle k.angle t := by
      show (kalmanPredict k x.gyroRate x.dt).angle + _ * (x.accelAngle - _) = _
      rw [hinnovation, mul_zero, add_zero, hpredict]
    have hbias : (kalmanStep k x).bias = bias := by
      show k.bias + _ * (x.accelAngle - (kalmanPredict k x.gyroRate x.dt).angle) = _
      rw [hinnovation, mul_zero, add_zero, h]
    have hrest := ih (k := kalmanStep k x) hbias
    rw [hangle] at hrest
    exact hrest

theorem dt_exactSamples (bias angle : K) (ts : List (Turn K)) :
    (exactSamples bias angle ts).map KalmanSample.dt = ts.map Turn.dt := by
  induction ts generalizing angle with
  | nil => rfl
  | cons t ts ih => rw [exactSamples, List.map_cons, List.map_cons, ih]

variable [LinearOrder K]

theorem dtInRange_exactSamples {bias angle : K} {ts : List (Turn K)}
    (h : ∀ t ∈ ts, 0 < t.dt ∧ t.dt ≤ 1 / 10) :
    ∀ y ∈ exactSamples bias angle ts, y.DtInRange := by
  intro y hy
  have hdt : y.dt ∈ ts.map Turn.dt := dt_exactSamples bias angle ts ▸ List.mem_map_of_mem hy
  obtain ⟨t, ht, heq⟩ := List.mem_map.1 hdt
  have hrange := h t ht
  rw [heq] at hrange
  exact hrange

variable [IsStrictOrderedRing K]

/-! ## One call -/

/-- Two filters that differ in their estimates only, by an error that the covariance covers. -/
structure TracksWithin (k k' : KalmanState K) (c : K) : Prop where
  same : k' = { k with angle := k'.angle, bias := k'.bias }
  covers : k.cov.Covers c (k.angle - k'.angle) (k.bias - k'.bias)

/-- By how much a call divides the factor. -/
def forgetting (x : KalmanSample K) : K := 1 + x.dt / 5000

theorem forgetting_pos (hx : x.DtInRange) : 0 < forgetting x := by
  have h1 : 0 < x.dt / 5000 := div_pos hx.1 (by norm_num)
  unfold forgetting
  linarith

/-- The process noise of a call is at least this share of the covariance it adds to. -/
theorem noise_dominates (hb : k.cov.Below covBound) (hx : x.DtInRange) (u v : K) :
    x.dt / 5000 * (k.cov.shear (-x.dt)).form u v ≤
      1 / 1000 * x.dt * u ^ 2 + 3 / 1000 * x.dt * v ^ 2 := by
  obtain ⟨h0, h1⟩ := hx
  have hform : (k.cov.shear (-x.dt)).form u v ≤ 5 * (u ^ 2 + v ^ 2) := by
    rw [Cov.form_shear]
    refine (hb u (v + -x.dt * u)).trans ?_
    have hdiff : 5 * (u ^ 2 + v ^ 2) - covBound.form u (v + -x.dt * u) =
        (2 - 5 * x.dt - 3 * x.dt ^ 2) * u ^ 2 + (1 - 3 * x.dt) * v ^ 2 +
          (1 + 3 * x.dt) * (u + v) ^ 2 := by
      simp only [Cov.form, covBound, Nat.cast_ofNat]
      ring
    have hsq : x.dt ^ 2 ≤ (1 / 10) ^ 2 := pow_le_pow_left₀ h0.le h1 2
    have hu : 0 ≤ (2 - 5 * x.dt - 3 * x.dt ^ 2) * u ^ 2 :=
      mul_nonneg (by linarith) (sq_nonneg u)
    have hv : 0 ≤ (1 - 3 * x.dt) * v ^ 2 := mul_nonneg (by linarith) (sq_nonneg v)
    have huv : 0 ≤ (1 + 3 * x.dt) * (u + v) ^ 2 := mul_nonneg (by linarith) (sq_nonneg _)
    linarith
  have hscale := mul_le_mul_of_nonneg_left hform (div_nonneg h0.le (by norm_num : (0 : K) ≤ 5000))
  have hrest : 0 ≤ 2 / 1000 * x.dt * v ^ 2 := mul_nonneg (by linarith) (sq_nonneg v)
  linarith

theorem TracksWithin.predict (h : TracksWithin k k' c) (hk : k.Sound) (hb : k.cov.Below covBound)
    (hc : 0 ≤ c) (hx : x.DtInRange) :
    TracksWithin (kalmanPredict k x.gyroRate x.dt) (kalmanPredict k' x.gyroRate x.dt)
      (c / forgetting x) := by
  obtain ⟨⟨hq, hqb, -⟩, hs⟩ := hk
  constructor
  · rw [h.same]
    rfl
  · have hmoved := (h.covers.shear (-x.dt)).addNoise hc
      (div_nonneg hx.1.le (by norm_num : (0 : K) ≤ 5000)) (noise_dominates hb hx)
    rw [kalmanPredict_cov hs.symm, hq, hqb]
    have hangle : (kalmanPredict k x.gyroRate x.dt).angle - (kalmanPredict k' x.gyroRate x.dt).angle =
        k.angle - k'.angle + -x.dt * (k.bias - k'.bias) := by
      show k.angle + x.dt * (x.gyroRate - k.bias) - (k'.angle + x.dt * (x.gyroRate - k'.bias)) = _
      ring
    rw [hangle]
    exact hmoved

theorem TracksWithin.correct (h : TracksWithin k k' c) (hk : k.CovarianceSound) (ht : k.WellTuned)
    (hc : 0 ≤ c) (accelAngle : K) :
    TracksWithin (kalmanCorrect k accelAngle) (kalmanCorrect k' accelAngle) c := by
  constructor
  · rw [h.same]
    rfl
  · have hS : k.cov.xx + k.rMeasure ≠ 0 := (innovationCov_pos hk ht).ne'
    have hread := h.covers.observe hc ht.rMeasure.le hS
    have hgain0 : k'.gain0 = k.gain0 := by
      rw [h.same]
      rfl
    have hgain1 : k'.gain1 = k.gain1 := by
      rw [h.same]
      rfl
    have hangle : (kalmanCorrect k accelAngle).angle - (kalmanCorrect k' accelAngle).angle =
        k.angle - k'.angle - k.cov.xx / (k.cov.xx + k.rMeasure) * (k.angle - k'.angle) := by
      show k.angle + k.gain0 * (accelAngle - k.angle) -
        (k'.angle + k'.gain0 * (accelAngle - k'.angle)) = _ - k.gain0 * _
      rw [hgain0]
      ring
    have hbias : (kalmanCorrect k accelAngle).bias - (kalmanCorrect k' accelAngle).bias =
        k.bias - k'.bias - k.cov.xy / (k.cov.xx + k.rMeasure) * (k.angle - k'.angle) := by
      have hxy : k.cov.xy / (k.cov.xx + k.rMeasure) = k.gain1 :=
        congrArg (· / k.innovationCov) hk.symm
      show k.bias + k.gain1 * (accelAngle - k.angle) -
        (k'.bias + k'.gain1 * (accelAngle - k'.angle)) = _
      rw [hxy, hgain1]
      ring
    rw [kalmanCorrect_cov hk.symm, hangle, hbias]
    exact hread

theorem TracksWithin.step (h : TracksWithin k k' c) (hk : k.Sound) (hb : k.cov.Below covBound)
    (hc : 0 ≤ c) (hx : x.DtInRange) :
    TracksWithin (kalmanStep k x) (kalmanStep k' x) (c / forgetting x) :=
  (h.predict hk hb hc hx).correct (kalmanPredict_sound hk.2 hk.1.wellTuned hx.1.le x.gyroRate)
    (hk.1.wellTuned.predict _ _) (div_nonneg hc (forgetting_pos hx).le) x.accelAngle

/-! ## Runs -/

/-- By how much a run divides the factor. -/
def forgotten (xs : List (KalmanSample K)) : K := (xs.map forgetting).prod

theorem forgotten_pos {xs : List (KalmanSample K)} (h : ∀ y ∈ xs, y.DtInRange) :
    0 < forgotten xs := by
  refine List.prod_pos ?_
  intro f hf
  obtain ⟨y, hy, rfl⟩ := List.mem_map.1 hf
  exact forgetting_pos (h y hy)

/-- What both filters have in common in every state of a run. -/
def KalmanState.Bounded (k : KalmanState K) : Prop := k.Sound ∧ k.cov.Below covBound

variable [FloorRing K]

theorem bounded_kalmanStep (h : k.Bounded) (hx : x.DtInRange) : (kalmanStep k x).Bounded :=
  ⟨sound_kalmanStep h.1 hx, below_covBound_kalmanStep h.1 h.2 hx⟩

theorem TracksWithin.run {xs : List (KalmanSample K)} (h : TracksWithin k k' c) (hk : k.Bounded)
    (hc : 0 ≤ c) (hxs : ∀ y ∈ xs, y.DtInRange) :
    TracksWithin (runFrom kalmanStep k xs) (runFrom kalmanStep k' xs) (c / forgotten xs) := by
  induction xs generalizing k k' c with
  | nil =>
    rw [forgotten, List.map_nil, List.prod_nil, div_one]
    exact h
  | cons x xs ih =>
    have hx : x.DtInRange := hxs x List.mem_cons_self
    have hrest := ih (h.step hk.1 hk.2 hc hx) (bounded_kalmanStep hk hx)
      (div_nonneg hc (forgetting_pos hx).le) fun y hy => hxs y (List.mem_cons_of_mem _ hy)
    rw [div_div] at hrest
    exact hrest

/-! ## From the start -/

/-- `kalman_init`, but for the estimates. -/
def kalmanFrom (angle bias : K) : KalmanState K := { kalmanInit with angle := angle, bias := bias }

theorem bounded_kalmanFrom (angle bias : K) : (kalmanFrom angle bias).Bounded := by
  have hs : (kalmanInit : KalmanState K).CovarianceSound := kalmanInit_sound
  exact ⟨⟨kalmanInit_initTuned, ⟨hs.symm, hs.posSemidef, hs.correlation⟩⟩,
    @below_covBound_kalmanRun K _ _ _ _ [] (by simp)⟩

/-- What the factor is after the first call, in terms of the error that its predict leaves. -/
def firstFactor (x : KalmanSample K) (angleErr biasErr : K) : K :=
  (angleErr - x.dt * biasErr) ^ 2 / angleNoise x.dt + biasErr ^ 2 / biasNoise x.dt

theorem firstFactor_nonneg (hx : x.DtInRange) (angleErr biasErr : K) :
    0 ≤ firstFactor x angleErr biasErr := by
  have h1 : 0 ≤ angleNoise x.dt := mul_nonneg (by norm_num) hx.1.le
  have h3 : 0 ≤ biasNoise x.dt := mul_nonneg (by norm_num) hx.1.le
  exact add_nonneg (div_nonneg (sq_nonneg _) h1) (div_nonneg (sq_nonneg _) h3)

/-- The first predict adds noise to both estimates, which covers any error. -/
theorem tracksWithin_first (hx : x.DtInRange) (a b a' b' : K) :
    TracksWithin (kalmanStep (kalmanFrom a b) x) (kalmanStep (kalmanFrom a' b') x)
      (firstFactor x (a - a') (b - b')) := by
  obtain ⟨⟨⟨hq, hqb, hr⟩, hs⟩, -⟩ := bounded_kalmanFrom a b
  have ht : (kalmanFrom a b).WellTuned := (bounded_kalmanFrom a b).1.1.wellTuned
  have hpredict : TracksWithin (kalmanPredict (kalmanFrom a b) x.gyroRate x.dt)
      (kalmanPredict (kalmanFrom a' b') x.gyroRate x.dt) (firstFactor x (a - a') (b - b')) := by
    constructor
    · rfl
    · have hangle : (kalmanPredict (kalmanFrom a b) x.gyroRate x.dt).angle -
          (kalmanPredict (kalmanFrom a' b') x.gyroRate x.dt).angle = a - a' - x.dt * (b - b') := by
        show a + x.dt * (x.gyroRate - b) - (a' + x.dt * (x.gyroRate - b')) = _
        ring
      rw [kalmanPredict_cov hs.symm, hq, hqb, hangle]
      exact (hs.cov_posSemidef.shear (-x.dt)).covers_addNoise (mul_pos (by norm_num) hx.1)
        (mul_pos (by norm_num) hx.1) _ _
  exact hpredict.correct (kalmanPredict_sound hs ht hx.1.le x.gyroRate) (ht.predict _ _)
    (firstFactor_nonneg hx _ _) x.accelAngle

/-- The factor falls at least as the reciprocal of the time that has passed. -/
theorem time_le_forgotten {xs : List (KalmanSample K)} (h : ∀ y ∈ xs, y.DtInRange) :
    1 + (xs.map KalmanSample.dt).sum / 5000 ≤ forgotten xs := by
  induction xs with
  | nil => simp [forgotten]
  | cons x xs ih =>
    have hx : x.DtInRange := h x List.mem_cons_self
    have hxs : ∀ y ∈ xs, y.DtInRange := fun y hy => h y (List.mem_cons_of_mem _ hy)
    have hsum : 0 ≤ (xs.map KalmanSample.dt).sum := by
      refine List.sum_nonneg ?_
      intro d hd
      obtain ⟨y, hy, rfl⟩ := List.mem_map.1 hd
      exact (hxs y hy).1.le
    have hmul := mul_le_mul_of_nonneg_left (ih hxs) (forgetting_pos hx).le
    have hcross : 0 ≤ x.dt / 5000 * ((xs.map KalmanSample.dt).sum / 5000) :=
      mul_nonneg (div_nonneg hx.1.le (by norm_num)) (div_nonneg hsum (by norm_num))
    show 1 + (x.dt + (xs.map KalmanSample.dt).sum) / 5000 ≤ forgetting x * forgotten xs
    refine le_trans ?_ hmul
    unfold forgetting
    linarith

theorem p00_kalmanStep_le (h : k.Bounded) (hx : x.DtInRange) : (kalmanStep k x).p00 ≤ 3 / 100 := by
  obtain ⟨⟨ht, hs⟩, -⟩ := h
  have hp := kalmanPredict_sound hs ht.wellTuned hx.1.le x.gyroRate
  have hlt := kalmanCorrect_p00_lt hp (ht.wellTuned.predict _ _) x.accelAngle
  have hr : (kalmanPredict k x.gyroRate x.dt).rMeasure = 3 / 100 := ht.2.2
  rw [hr] at hlt
  exact hlt.le

/-- Two filters that start anywhere and get the same samples, whatever these are, come together: the
squares of their differences fall at least as the reciprocal of a product that grows with the time
that has passed. -/
theorem kalman_forgets (a b a' b' : K) (x : KalmanSample K) (xs : List (KalmanSample K))
    (hx : x.DtInRange) (hxs : ∀ y ∈ xs, y.DtInRange) :
    let k := runFrom kalmanStep (kalmanFrom a b) (x :: xs)
    let k' := runFrom kalmanStep (kalmanFrom a' b') (x :: xs)
    (k.angle - k'.angle) ^ 2 * forgotten xs ≤ firstFactor x (a - a') (b - b') * (3 / 100) ∧
      (k.bias - k'.bias) ^ 2 * forgotten xs ≤ firstFactor x (a - a') (b - b') * 3 ∧
        1 + (xs.map KalmanSample.dt).sum / 5000 ≤ forgotten xs := by
  intro k k'
  have hc : 0 ≤ firstFactor x (a - a') (b - b') := firstFactor_nonneg hx _ _
  have hfirst : (kalmanStep (kalmanFrom a b) x).Bounded :=
    bounded_kalmanStep (bounded_kalmanFrom a b) hx
  have hpos : 0 < forgotten xs := forgotten_pos hxs
  have htrack : TracksWithin k k' (firstFactor x (a - a') (b - b') / forgotten xs) :=
    (tracksWithin_first hx a b a' b').run hfirst hc hxs
  obtain ⟨hk, hp00⟩ : k.Bounded ∧ k.p00 ≤ 3 / 100 :=
    (allSteps_of_forall hxs).invariant (fun k : KalmanState K => k.Bounded ∧ k.p00 ≤ 3 / 100)
      ⟨hfirst, p00_kalmanStep_le (bounded_kalmanFrom a b) hx⟩
      fun _ _ hy h => ⟨bounded_kalmanStep h.1 hy, p00_kalmanStep_le h.1 hy⟩
  have hp11 : k.p11 ≤ 3 := hk.2.yy_le
  -- a square that the covariance covers, with a bound on the variance
  have hbound : ∀ {e p m : K}, e ^ 2 ≤ firstFactor x (a - a') (b - b') / forgotten xs * p → p ≤ m →
      e ^ 2 * forgotten xs ≤ firstFactor x (a - a') (b - b') * m := by
    intro e p m he hpm
    have hle := he.trans (mul_le_mul_of_nonneg_left hpm (div_nonneg hc hpos.le))
    rwa [div_mul_eq_mul_div, le_div_iff₀ hpos] at hle
  exact ⟨hbound htrack.covers.sq_le_xx hp00, hbound htrack.covers.sq_le_yy hp11,
    time_le_forgotten hxs⟩

theorem kalman_forgets_second :
    let k := runFrom kalmanStep (kalmanFrom 5 0) [firstSample, secondSample]
    let k' := runFrom kalmanStep (kalmanFrom 0 1) [firstSample, secondSample]
    (k.angle - k'.angle) ^ 2 * forgotten [secondSample] ≤
        firstFactor firstSample (5 - 0) (0 - 1) * (3 / 100) ∧
      (k.bias - k'.bias) ^ 2 * forgotten [secondSample] ≤
        firstFactor firstSample (5 - 0) (0 - 1) * 3 ∧
      1 + ([secondSample].map KalmanSample.dt).sum / 5000 ≤ forgotten [secondSample] :=
  kalman_forgets 5 0 0 1 firstSample [secondSample] dtInRange_samples.1
    (by simpa using dtInRange_samples.2)

/-! ## Exact readings find the angle and the bias -/

theorem abs_lt_of_sq_mul_le {e c m ε f : K} (hε : 0 < ε) (h : e ^ 2 * f ≤ c * m) (hm : m ≤ 3)
    (hc : 0 ≤ c) (hf : 3 * c / ε ^ 2 < f) : |e| < ε := by
  have hsq : 0 < ε ^ 2 := pow_pos hε 2
  have hf0 : 0 < f := lt_of_le_of_lt (div_nonneg (by linarith) hsq.le) hf
  rw [div_lt_iff₀ hsq] at hf
  refine abs_lt_of_sq_lt_sq ?_ hε.le
  have hlt : e ^ 2 * f < ε ^ 2 * f := by
    have hcm := mul_le_mul_of_nonneg_left hm hc
    linarith
  exact lt_of_mul_lt_mul_right hlt hf0.le

/-- The filter finds the angle and the gyro bias: from `kalman_init`, whatever the true angle and bias
are and however the drone turns, after a time that depends on the first reading and the precision only
both estimates are within the precision, for good. -/
theorem kalman_finds_bias (angle bias : K) (t : Turn K) {ε : K} (ht : 0 < t.dt ∧ t.dt ≤ 1 / 10)
    (hε : 0 < ε) :
    ∃ T, ∀ ts : List (Turn K), (∀ y ∈ ts, 0 < y.dt ∧ y.dt ≤ 1 / 10) → T ≤ (ts.map Turn.dt).sum →
      let k := kalmanRun (exactSamples bias angle (t :: ts))
      |k.angle - runFrom turnAngle angle (t :: ts)| < ε ∧ |k.bias - bias| < ε := by
  let x : KalmanSample K := ⟨turnAngle angle t, t.rate + bias, t.dt⟩
  let c : K := firstFactor x (0 - angle) (0 - bias)
  have hc : 0 ≤ c := firstFactor_nonneg (x := x) ht _ _
  refine ⟨5000 * (3 * c / ε ^ 2), ?_⟩
  intro ts hts hT k
  have hstart : (kalmanInit : KalmanState K) = kalmanFrom 0 0 := by
    have h0 : (ofRat 0 : K) = 0 := Rat.cast_zero
    simp [kalmanFrom, kalmanInit, h0]
  have htruth := runFrom_exactSamples (k := kalmanFrom angle bias) bias (t :: ts) rfl
  have hangle : (runFrom kalmanStep (kalmanFrom angle bias)
      (x :: exactSamples bias (turnAngle angle t) ts)).angle = runFrom turnAngle angle (t :: ts) :=
    htruth.1
  have hbias : (runFrom kalmanStep (kalmanFrom angle bias)
      (x :: exactSamples bias (turnAngle angle t) ts)).bias = bias := htruth.2
  obtain ⟨h1, h2, h3⟩ := kalman_forgets 0 0 angle bias x (exactSamples bias (turnAngle angle t) ts)
    ht (dtInRange_exactSamples hts)
  have htime : 3 * c / ε ^ 2 < forgotten (exactSamples bias (turnAngle angle t) ts) := by
    rw [dt_exactSamples] at h3
    have hdiv : 3 * c / ε ^ 2 ≤ (ts.map Turn.dt).sum / 5000 := by
      rw [le_div_iff₀ (by norm_num), mul_comm]
      exact hT
    linarith
  rw [← hstart, hangle] at h1
  rw [← hstart, hbias] at h2
  exact ⟨abs_lt_of_sq_mul_le hε h1 (by norm_num) hc htime, abs_lt_of_sq_mul_le hε h2 le_rfl hc htime⟩

/-- A drone that starts tilted by 10°, with a gyro that is off by 2 °/s. -/
theorem kalman_finds_bias_tilted :
    ∃ T, ∀ ts : List (Turn ℚ), (∀ y ∈ ts, 0 < y.dt ∧ y.dt ≤ 1 / 10) → T ≤ (ts.map Turn.dt).sum →
      let k := kalmanRun (exactSamples 2 10 (⟨0, 1 / 100⟩ :: ts))
      |k.angle - runFrom turnAngle 10 (⟨0, 1 / 100⟩ :: ts)| < 1 ∧ |k.bias - 2| < 1 :=
  kalman_finds_bias 10 2 ⟨0, 1 / 100⟩ (by norm_num) one_pos

end EdnaDrone
