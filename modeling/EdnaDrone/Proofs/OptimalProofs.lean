import EdnaDrone.Lib.JosephForm
import EdnaDrone.Proofs.KalmanProofs
import Mathlib.Algebra.Order.Star.Real
import Mathlib.Data.Real.Star
import Mathlib.LinearAlgebra.Matrix.Notation

/-!
# The Kalman gain is optimal

In real arithmetic the four entries that `kalman_update` rewrites one after the other are those of
`F * P * Fᵀ + Q` and then of the Joseph form for the gain it computes, and that gain is the one of
least variance.
-/

namespace EdnaDrone

open Lib CNum Matrix

section Matrices

variable {K : Type} [Field K]

/-- The stored covariance as a matrix. -/
def KalmanState.matrix (k : KalmanState K) : Matrix (Fin 2) (Fin 2) K :=
  !![k.p00, k.p01; k.p10, k.p11]

def KalmanState.gain (k : KalmanState K) : Fin 2 → K := ![k.gain0, k.gain1]

/-- How the angle and the bias evolve over `dt`: the bias is subtracted from the rate. -/
def transition (dt : K) : Matrix (Fin 2) (Fin 2) K := !![1, -dt; 0, 1]

def processNoise (k : KalmanState K) (dt : K) : Matrix (Fin 2) (Fin 2) K :=
  dt • diagonal ![k.qAngle, k.qBias]

/-- The covariance before the reading. -/
def priorMatrix (k : KalmanState K) (dt : K) : Matrix (Fin 2) (Fin 2) K :=
  transition dt * k.matrix * (transition dt)ᵀ + processNoise k dt

/-- The accelerometer reads the angle. -/
def angleRow : Fin 2 → K := ![1, 0]

end Matrices

variable {k : KalmanState ℝ}

/-! ## The two phases on matrices -/

theorem transition_transpose (dt : ℝ) : (transition dt)ᵀ = !![1, 0; -dt, 1] := by
  ext i j
  fin_cases i <;> fin_cases j <;> rfl

theorem matrix_kalmanPredict (k : KalmanState ℝ) (gyroRate dt : ℝ) :
    (kalmanPredict k gyroRate dt).matrix = priorMatrix k dt := by
  unfold priorMatrix
  rw [transition_transpose]
  unfold transition processNoise KalmanState.matrix kalmanPredict
  ext i j
  fin_cases i <;> fin_cases j
  · simp
    ring
  · simp
    ring
  · simp
    ring
  · simp
    ring

theorem mulVec_angleRow (k : KalmanState ℝ) : k.matrix *ᵥ angleRow = ![k.p00, k.p10] := by
  unfold KalmanState.matrix angleRow
  ext i
  fin_cases i
  · simp
  · simp

theorem innovationVar_matrix (k : KalmanState ℝ) :
    innovationVar k.matrix angleRow k.rMeasure = k.innovationCov := by
  unfold innovationVar KalmanState.innovationCov
  rw [mulVec_angleRow]
  simp [angleRow]

/-- The gain that the code computes is the optimal one for the covariance it stores. -/
theorem optimalGain_matrix (k : KalmanState ℝ) :
    optimalGain k.matrix angleRow k.rMeasure = k.gain := by
  unfold optimalGain KalmanState.gain KalmanState.gain0 KalmanState.gain1
  rw [innovationVar_matrix, mulVec_angleRow]
  ext i
  fin_cases i
  · simp [div_eq_inv_mul]
  · simp [div_eq_inv_mul]

theorem matrix_kalmanCorrect (h : k.matrix.IsSymm) (accelAngle : ℝ) :
    (kalmanCorrect k accelAngle).matrix = k.matrix - vecMulVec k.gain (k.matrix *ᵥ angleRow) := by
  have hsymm : k.p10 = k.p01 := congrFun (congrFun h 0) 1
  rw [mulVec_angleRow]
  unfold KalmanState.matrix KalmanState.gain kalmanCorrect
  ext i j
  fin_cases i <;> fin_cases j
  · simp
  · simp [hsymm]
  · simp
  · simp [hsymm]

theorem posSemidef_priorMatrix (h : k.matrix.PosSemidef) (ht : k.WellTuned) {dt : ℝ} (hdt : 0 < dt) :
    (priorMatrix k dt).PosSemidef := by
  have hmove : (transition dt * k.matrix * (transition dt)ᵀ).PosSemidef := by
    have h1 := h.mul_mul_conjTranspose_same (transition dt)
    rwa [conjTranspose_eq_transpose_of_trivial] at h1
  have hdiag : (diagonal ![k.qAngle, k.qBias]).PosSemidef := by
    refine PosSemidef.diagonal fun i => ?_
    fin_cases i
    · exact ht.qAngle
    · exact ht.qBias
  exact hmove.add (hdiag.smul hdt.le)

/-- The covariance that `kalman_update` leaves is the Joseph form for its own gain, and no other gain
has a smaller one. -/
theorem kalman_gain_optimal (h : k.matrix.PosSemidef) (ht : k.WellTuned) {dt : ℝ} (hdt : 0 < dt)
    (accelAngle gyroRate : ℝ) :
    let own := (kalmanPredict k gyroRate dt).gain
    let post := (kalmanUpdate k accelAngle gyroRate dt).1.matrix
    post = josephForm (priorMatrix k dt) angleRow k.rMeasure own ∧
      ∀ L, (josephForm (priorMatrix k dt) angleRow k.rMeasure L - post).PosSemidef := by
  intro own post
  have hprior : (kalmanPredict k gyroRate dt).matrix = priorMatrix k dt :=
    matrix_kalmanPredict k gyroRate dt
  have hpsd := posSemidef_priorMatrix h ht hdt
  have hsymm : (priorMatrix k dt).IsSymm := by
    have h1 := hpsd.isHermitian
    rwa [IsHermitian, conjTranspose_eq_transpose_of_trivial] at h1
  have hS : 0 < innovationVar (priorMatrix k dt) angleRow k.rMeasure := by
    have h1 := hpsd.dotProduct_mulVec_nonneg angleRow
    rw [star_trivial] at h1
    exact add_pos_of_nonneg_of_pos h1 ht.rMeasure
  have hown : optimalGain (priorMatrix k dt) angleRow k.rMeasure = own := by
    rw [← hprior]
    exact optimalGain_matrix (kalmanPredict k gyroRate dt)
  have hpost : post = josephForm (priorMatrix k dt) angleRow k.rMeasure own := by
    have hs : (kalmanPredict k gyroRate dt).matrix.IsSymm := by rwa [hprior]
    rw [← hown, josephForm_optimalGain hsymm hS.ne', hown, ← hprior]
    exact matrix_kalmanCorrect hs accelAngle
  refine ⟨hpost, ?_⟩
  intro L
  rw [hpost, ← hown]
  exact posSemidef_josephForm_sub hsymm hS L

/-- The initial filter, unsure of its angle. -/
noncomputable def uncertainAngle : KalmanState ℝ := { kalmanInit with p00 := 1 }

theorem kalman_gain_optimal_uncertain :
    let own := (kalmanPredict uncertainAngle 0 1).gain
    let post := (kalmanUpdate uncertainAngle 5 0 1).1.matrix
    post = josephForm (priorMatrix uncertainAngle 1) angleRow uncertainAngle.rMeasure own ∧
      ∀ L, (josephForm (priorMatrix uncertainAngle 1) angleRow uncertainAngle.rMeasure L -
        post).PosSemidef := by
  have h0 : (ofRat 0 : ℝ) = 0 := Rat.cast_zero
  have hdiag : uncertainAngle.matrix = diagonal ![1, 0] := by
    unfold uncertainAngle KalmanState.matrix kalmanInit
    ext i j
    fin_cases i <;> fin_cases j <;> simp [h0]
  have hpsd : uncertainAngle.matrix.PosSemidef := by
    rw [hdiag]
    refine PosSemidef.diagonal fun i => ?_
    fin_cases i
    · exact zero_le_one
    · exact le_rfl
  have htuned : (kalmanInit : KalmanState ℝ).WellTuned := kalmanInit_initTuned.wellTuned
  exact kalman_gain_optimal hpsd ⟨htuned.qAngle, htuned.qBias, htuned.rMeasure⟩ one_pos 5 0

end EdnaDrone
