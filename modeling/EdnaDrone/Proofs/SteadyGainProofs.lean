import EdnaDrone.Lib.Riccati
import EdnaDrone.Proofs.KalmanProofs
import Mathlib

/-!
# The gains of the Kalman filter settle

The covariance does not depend on the readings, only on the time steps. When these are all the same,
it goes through the iterates of one map, which grow to the least fixed point of that map, and the gains
that the calls apply to the innovation converge.
-/

namespace EdnaDrone

open Lib CNum Filter Topology

section Gains

variable {K : Type} [Field K]

/-- What a call with the tuning of `kalman_init` does to the covariance. -/
def covStep (dt : K) (P : Cov K) : Cov K :=
  P.riccati (-dt) (angleNoise dt) (biasNoise dt) measureNoise

/-- The covariance between the predict and the update of a call. -/
def covPrior (dt : K) (P : Cov K) : Cov K :=
  (P.shear (-dt)).addNoise (angleNoise dt) (biasNoise dt)

/-- The gains that a call applies, when the covariance before it is `P`. -/
def steadyGain0 (dt : K) (P : Cov K) : K :=
  (covPrior dt P).xx / ((covPrior dt P).xx + measureNoise)

def steadyGain1 (dt : K) (P : Cov K) : K :=
  (covPrior dt P).xy / ((covPrior dt P).xx + measureNoise)

end Gains

variable {k : KalmanState ℝ} {dt : ℝ}

theorem noisy (hdt : 0 < dt) : Cov.Noisy (angleNoise dt) (biasNoise dt) measureNoise :=
  ⟨mul_nonneg (by norm_num) hdt.le, mul_nonneg (by norm_num) hdt.le, by norm_num⟩

theorem cov_kalmanPredict (h : k.Sound) (gyroRate dt : ℝ) :
    (kalmanPredict k gyroRate dt).cov = covPrior dt k.cov := by
  obtain ⟨⟨hq, hqb, -⟩, hs⟩ := h
  rw [kalmanPredict_cov hs.symm, hq, hqb]
  rfl

theorem cov_kalmanStep (h : k.Sound) (x : KalmanSample ℝ) :
    (kalmanStep k x).cov = covStep x.dt k.cov := by
  have hr : (kalmanPredict k x.gyroRate x.dt).rMeasure = measureNoise := h.1.2.2
  show (kalmanCorrect (kalmanPredict k x.gyroRate x.dt) x.accelAngle).cov = _
  rw [kalmanCorrect_cov (kalmanPredict_symm h.2.symm _ _), hr, cov_kalmanPredict h]
  rfl

theorem gain0_kalmanPredict (h : k.Sound) (gyroRate dt : ℝ) :
    (kalmanPredict k gyroRate dt).gain0 = steadyGain0 dt k.cov := by
  have hr : (kalmanPredict k gyroRate dt).rMeasure = measureNoise := h.1.2.2
  rw [steadyGain0, ← cov_kalmanPredict h gyroRate, ← hr]
  rfl

theorem gain1_kalmanPredict (h : k.Sound) (gyroRate dt : ℝ) :
    (kalmanPredict k gyroRate dt).gain1 = steadyGain1 dt k.cov := by
  have hr : (kalmanPredict k gyroRate dt).rMeasure = measureNoise := h.1.2.2
  have hsymm := kalmanPredict_symm h.2.symm gyroRate dt
  rw [steadyGain1, ← cov_kalmanPredict h gyroRate, ← hr]
  exact congrArg (· / _) hsymm.symm

/-! ## Runs with one time step -/

/-- The samples of the first `n` calls, from the readings `m` of the accelerometer and the gyro. -/
def steadySamples (dt : ℝ) (m : ℕ → ℝ × ℝ) (n : ℕ) : List (KalmanSample ℝ) :=
  (List.range n).map fun i => ⟨(m i).1, (m i).2, dt⟩

theorem kalmanRun_steadySamples_succ (dt : ℝ) (m : ℕ → ℝ × ℝ) (n : ℕ) :
    kalmanRun (steadySamples dt m (n + 1)) =
      kalmanStep (kalmanRun (steadySamples dt m n)) ⟨(m n).1, (m n).2, dt⟩ := by
  simp [steadySamples, List.range_succ]

theorem dtInRange_steadySamples (hdt : 0 < dt ∧ dt ≤ 1 / 10) (m : ℕ → ℝ × ℝ) (n : ℕ) :
    ∀ x ∈ steadySamples dt m n, x.DtInRange := by
  intro x hx
  obtain ⟨i, -, rfl⟩ := List.mem_map.1 hx
  exact hdt

/-- The covariance goes through the iterates of the step. -/
theorem cov_steadySamples (hdt : 0 < dt ∧ dt ≤ 1 / 10) (m : ℕ → ℝ × ℝ) (n : ℕ) :
    (kalmanRun (steadySamples dt m n)).cov =
      Cov.riccatiIter (-dt) (angleNoise dt) (biasNoise dt) measureNoise n := by
  induction n with
  | zero =>
    have h0 : (ofRat 0 : ℝ) = 0 := Rat.cast_zero
    show (⟨ofRat 0, ofRat 0, ofRat 0⟩ : Cov ℝ) = ⟨0, 0, 0⟩
    rw [h0]
  | succ n ih =>
    rw [kalmanRun_steadySamples_succ, cov_kalmanStep (sound_kalmanRun
      (dtInRange_steadySamples hdt m n)), ih, Cov.riccatiIter_succ]
    rfl

theorem riccatiIter_below_covBound (hdt : 0 < dt ∧ dt ≤ 1 / 10) (n : ℕ) :
    (Cov.riccatiIter (-dt) (angleNoise dt) (biasNoise dt) measureNoise n).Below covBound := by
  rw [← cov_steadySamples hdt (fun _ => (0, 0))]
  exact below_covBound_kalmanRun (dtInRange_steadySamples hdt _ n)

theorem tendsto_covPrior {Ps : ℕ → Cov ℝ} {P : Cov ℝ} (h : Cov.TendsTo Ps P) (dt : ℝ) :
    Tendsto (fun n => (covPrior dt (Ps n)).xx) atTop (𝓝 (covPrior dt P).xx) ∧
      Tendsto (fun n => (covPrior dt (Ps n)).xy) atTop (𝓝 (covPrior dt P).xy) :=
  ⟨((h.xx.add ((h.xy.const_mul _).const_mul 2)).add (h.yy.const_mul _)).add_const _,
    h.xy.add (h.yy.const_mul _)⟩

/-- With one time step, whatever the readings, the covariance only grows, to the least fixed point of
the step, and the gains converge to those of the fixed point. -/
theorem kalman_gains_settle (dt : ℝ) (hdt : 0 < dt ∧ dt ≤ 1 / 10) :
    ∃ P : Cov ℝ, (P.PosSemidef ∧ covStep dt P = P) ∧
      (∀ Q : Cov ℝ, Q.PosSemidef → covStep dt Q = Q → P.Below Q) ∧
      ∀ m : ℕ → ℝ × ℝ,
        (∀ n, (kalmanRun (steadySamples dt m n)).cov.Below
            (kalmanRun (steadySamples dt m (n + 1))).cov ∧
          (kalmanRun (steadySamples dt m n)).cov.Below P) ∧
        Cov.TendsTo (fun n => (kalmanRun (steadySamples dt m n)).cov) P ∧
        Tendsto (fun n => (kalmanPredict (kalmanRun (steadySamples dt m n)) (m n).2 dt).gain0)
          atTop (𝓝 (steadyGain0 dt P)) ∧
        Tendsto (fun n => (kalmanPredict (kalmanRun (steadySamples dt m n)) (m n).2 dt).gain1)
          atTop (𝓝 (steadyGain1 dt P)) := by
  obtain ⟨P, htends, hbelow, hpsd, hfix, hleast⟩ :=
    Cov.riccatiIter_tendsTo (noisy hdt.1) (riccatiIter_below_covBound hdt)
  refine ⟨P, ⟨hpsd, hfix⟩, hleast, ?_⟩
  intro m
  have hsound : ∀ n, (kalmanRun (steadySamples dt m n)).Sound :=
    fun n => sound_kalmanRun (dtInRange_steadySamples hdt m n)
  have hcov : Cov.TendsTo (fun n => (kalmanRun (steadySamples dt m n)).cov) P := by
    simp only [cov_steadySamples hdt]
    exact htends
  have hxx := (tendsto_covPrior hcov dt).1
  have hxy := (tendsto_covPrior hcov dt).2
  have hS : (covPrior dt P).xx + measureNoise ≠ 0 := (hpsd.prior_pos (noisy hdt.1) (-dt)).ne'
  refine ⟨?_, hcov, ?_, ?_⟩
  · intro n
    rw [cov_steadySamples hdt, cov_steadySamples hdt]
    exact ⟨Cov.riccatiIter_below_succ (noisy hdt.1) (-dt) n, hbelow n⟩
  · simp only [gain0_kalmanPredict (hsound _)]
    exact hxx.div (hxx.add_const _) hS
  · simp only [gain1_kalmanPredict (hsound _)]
    exact hxy.div (hxx.add_const _) hS

theorem kalman_gains_settle_centisecond :
    ∃ P : Cov ℝ, (P.PosSemidef ∧ covStep (1 / 100) P = P) ∧
      (∀ Q : Cov ℝ, Q.PosSemidef → covStep (1 / 100) Q = Q → P.Below Q) ∧
      ∀ m : ℕ → ℝ × ℝ,
        (∀ n, (kalmanRun (steadySamples (1 / 100) m n)).cov.Below
            (kalmanRun (steadySamples (1 / 100) m (n + 1))).cov ∧
          (kalmanRun (steadySamples (1 / 100) m n)).cov.Below P) ∧
        Cov.TendsTo (fun n => (kalmanRun (steadySamples (1 / 100) m n)).cov) P ∧
        Tendsto (fun n =>
            (kalmanPredict (kalmanRun (steadySamples (1 / 100) m n)) (m n).2 (1 / 100)).gain0)
          atTop (𝓝 (steadyGain0 (1 / 100) P)) ∧
        Tendsto (fun n =>
            (kalmanPredict (kalmanRun (steadySamples (1 / 100) m n)) (m n).2 (1 / 100)).gain1)
          atTop (𝓝 (steadyGain1 (1 / 100) P)) :=
  kalman_gains_settle (1 / 100) (by norm_num)

end EdnaDrone
