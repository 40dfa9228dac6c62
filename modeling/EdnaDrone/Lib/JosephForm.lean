import Mathlib.LinearAlgebra.Matrix.PosDef
import Mathlib.Tactic.Module

/-!
# The gain of least variance

An estimate with the error covariance `P` is corrected by a reading of `h ⬝ᵥ x` whose noise has the
variance `r`. Whatever gain `L` the correction uses, the Joseph form is its error covariance. It
exceeds that of one gain, `P *ᵥ h` divided by the variance of the innovation, by a square.
-/

namespace Lib

open Matrix

variable {n K : Type*} [Fintype n] [DecidableEq n] [Field K]

/-- The error covariance after a correction with the gain `L`. -/
def josephForm (P : Matrix n n K) (h : n → K) (r : K) (L : n → K) : Matrix n n K :=
  (1 - vecMulVec L h) * P * (1 - vecMulVec L h)ᵀ + r • vecMulVec L L

def innovationVar (P : Matrix n n K) (h : n → K) (r : K) : K := h ⬝ᵥ (P *ᵥ h) + r

def optimalGain (P : Matrix n n K) (h : n → K) (r : K) : n → K :=
  (innovationVar P h r)⁻¹ • (P *ᵥ h)

variable {P : Matrix n n K} {h : n → K} {r : K}

theorem josephForm_eq (hP : P.IsSymm) (L : n → K) :
    josephForm P h r L = P - vecMulVec L (P *ᵥ h) - vecMulVec (P *ᵥ h) L +
      innovationVar P h r • vecMulVec L L := by
  have hrow : h ᵥ* P = P *ᵥ h := by
    rw [← mulVec_transpose, hP.eq]
  have hleft : (1 - vecMulVec L h) * P = P - vecMulVec L (P *ᵥ h) := by
    rw [Matrix.sub_mul, Matrix.one_mul, vecMulVec_mul, hrow]
  have hright : (1 - vecMulVec L h)ᵀ = 1 - vecMulVec h L := by
    rw [transpose_sub, transpose_one, transpose_vecMulVec]
  have hmid : vecMulVec L (P *ᵥ h) * vecMulVec h L = (h ⬝ᵥ (P *ᵥ h)) • vecMulVec L L := by
    rw [vecMulVec_mul_vecMulVec, vecMulVec_smul, dotProduct_comm]
  unfold josephForm innovationVar
  rw [hleft, hright, Matrix.mul_sub, Matrix.mul_one, Matrix.sub_mul, mul_vecMulVec, hmid]
  module

/-- The square is completed: the gain enters through its distance from the optimal one only. -/
theorem josephForm_eq_square (hP : P.IsSymm) (hS : innovationVar P h r ≠ 0) (L : n → K) :
    josephForm P h r L = P - vecMulVec (optimalGain P h r) (P *ᵥ h) +
      innovationVar P h r • vecMulVec (L - optimalGain P h r) (L - optimalGain P h r) := by
  have hg : P *ᵥ h = innovationVar P h r • optimalGain P h r := by
    unfold optimalGain
    rw [smul_smul, mul_inv_cancel₀ hS, one_smul]
  rw [josephForm_eq hP, hg]
  simp only [sub_vecMulVec, vecMulVec_sub, vecMulVec_smul, smul_vecMulVec]
  module

theorem josephForm_optimalGain (hP : P.IsSymm) (hS : innovationVar P h r ≠ 0) :
    josephForm P h r (optimalGain P h r) = P - vecMulVec (optimalGain P h r) (P *ᵥ h) := by
  rw [josephForm_eq_square hP hS, sub_self, vecMulVec_zero, smul_zero, add_zero]

/-- No gain does better than the optimal one. -/
theorem posSemidef_josephForm_sub [PartialOrder K] [StarRing K] [TrivialStar K] [StarOrderedRing K]
    (hP : P.IsSymm) (hS : 0 < innovationVar P h r) (L : n → K) :
    (josephForm P h r L - josephForm P h r (optimalGain P h r)).PosSemidef := by
  have hsq : (vecMulVec (L - optimalGain P h r) (L - optimalGain P h r)).PosSemidef := by
    have h1 := posSemidef_vecMulVec_self_star (L - optimalGain P h r)
    rwa [star_trivial] at h1
  rw [josephForm_optimalGain hP hS.ne', josephForm_eq_square hP hS.ne', add_sub_cancel_left]
  exact hsq.smul hS.le

end Lib
