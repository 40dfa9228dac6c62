import Mathlib.Algebra.Order.Field.Basic
import Mathlib.Tactic.Linarith
import Mathlib.Tactic.Ring
import Mathlib.Tactic.FieldSimp

/-!
# Covariances of two variables

A covariance is studied through its quadratic form: `P.form u v` is the variance of `u * x + v * y`.
A shear moves the first variable along the second, independent noise adds to the variances, and
`observe` conditions on a noisy reading of the first variable. Conditioning is optimal: its form is
below that of the error of any other linear estimate (`form_observe_le`), so an upper bound on the
covariance after a step can be proved with an estimator chosen for the proof.
-/

namespace Lib

/-- The covariance of a pair of variables `x`, `y`. -/
structure Cov (K : Type*) where
  xx : K
  xy : K
  yy : K

namespace Cov

variable {K : Type*} [Field K] {P Q : Cov K}

/-- The variance of `u * x + v * y`. -/
def form (P : Cov K) (u v : K) : K := P.xx * u ^ 2 + 2 * P.xy * (u * v) + P.yy * v ^ 2

/-- The covariance of `x + a * y`, `y`. -/
def shear (a : K) (P : Cov K) : Cov K :=
  ⟨P.xx + 2 * (a * P.xy) + a ^ 2 * P.yy, P.xy + a * P.yy, P.yy⟩

/-- Independent noise of variances `nx` and `ny` on the two variables. -/
def addNoise (nx ny : K) (P : Cov K) : Cov K := ⟨P.xx + nx, P.xy, P.yy + ny⟩

/-- The covariance after reading `x` with a noise of variance `r`. -/
def observe (r : K) (P : Cov K) : Cov K :=
  ⟨P.xx - P.xx / (P.xx + r) * P.xx, P.xy - P.xx / (P.xx + r) * P.xy,
    P.yy - P.xy / (P.xx + r) * P.xy⟩

theorem form_one_zero : P.form 1 0 = P.xx := by simp [form]

theorem form_zero_one : P.form 0 1 = P.yy := by simp [form]

theorem form_shear (a u v : K) : (P.shear a).form u v = P.form u (v + a * u) := by
  simp only [form, shear]
  ring

theorem form_addNoise (nx ny u v : K) :
    (P.addNoise nx ny).form u v = P.form u v + (nx * u ^ 2 + ny * v ^ 2) := by
  simp only [form, addNoise]
  ring

/-- The error of estimating `u * x + v * y` by `t` times the reading splits into the error of the
conditional expectation and the distance between the two estimates. -/
theorem form_observe {r : K} (h : P.xx + r ≠ 0) (u v t : K) :
    P.form (u - t) v + r * t ^ 2 = (P.observe r).form u v +
      (P.xx + r) * (t - (P.xx * u + P.xy * v) / (P.xx + r)) ^ 2 := by
  simp only [form, observe]
  field_simp
  ring

variable [LinearOrder K]

def PosSemidef (P : Cov K) : Prop := ∀ u v, 0 ≤ P.form u v

def Below (P Q : Cov K) : Prop := ∀ u v, P.form u v ≤ Q.form u v

theorem PosSemidef.xx_nonneg (h : P.PosSemidef) : 0 ≤ P.xx := form_one_zero (P := P) ▸ h 1 0

theorem PosSemidef.yy_nonneg (h : P.PosSemidef) : 0 ≤ P.yy := form_zero_one (P := P) ▸ h 0 1

theorem Below.yy_le (h : P.Below Q) : P.yy ≤ Q.yy := by
  have h1 := h 0 1
  rwa [form_zero_one, form_zero_one] at h1

theorem PosSemidef.shear (h : P.PosSemidef) (a : K) : (P.shear a).PosSemidef := by
  intro u v
  rw [form_shear]
  exact h _ _

variable [IsStrictOrderedRing K]

theorem form_observe_le {r : K} (h : 0 < P.xx + r) (u v t : K) :
    (P.observe r).form u v ≤ P.form (u - t) v + r * t ^ 2 := by
  rw [form_observe h.ne' u v t]
  have h1 : 0 ≤ (P.xx + r) * (t - (P.xx * u + P.xy * v) / (P.xx + r)) ^ 2 :=
    mul_nonneg h.le (sq_nonneg _)
  linarith

theorem PosSemidef.addNoise {nx ny : K} (h : P.PosSemidef) (hx : 0 ≤ nx) (hy : 0 ≤ ny) :
    (P.addNoise nx ny).PosSemidef := by
  intro u v
  rw [form_addNoise]
  have h1 := h u v
  have h2 := mul_nonneg hx (sq_nonneg u)
  have h3 := mul_nonneg hy (sq_nonneg v)
  linarith

theorem PosSemidef.observe {r : K} (h : P.PosSemidef) (hr : 0 < r) : (P.observe r).PosSemidef := by
  intro u v
  have hS : 0 < P.xx + r := by have := h.xx_nonneg; linarith
  have h1 := form_observe hS.ne' u v ((P.xx * u + P.xy * v) / (P.xx + r))
  rw [sub_self, zero_pow two_ne_zero, mul_zero, add_zero] at h1
  rw [← h1]
  exact add_nonneg (h _ _) (mul_nonneg hr.le (sq_nonneg _))

/-- A form whose mixed coefficient is dominated by the other two is nonnegative. -/
theorem form_nonneg_of_dominant {m : K} (hx : m ≤ P.xx) (hy : m ≤ P.yy) (hxy : |P.xy| ≤ m)
    (u v : K) : 0 ≤ P.form u v := by
  have hm : 0 ≤ m := (abs_nonneg _).trans hxy
  obtain ⟨h1, h2⟩ := abs_le.1 hxy
  have h3 : 0 ≤ (P.xx - m) * u ^ 2 := mul_nonneg (by linarith) (sq_nonneg u)
  have h4 : 0 ≤ (P.yy - m) * v ^ 2 := mul_nonneg (by linarith) (sq_nonneg v)
  -- what is left is the mean of two squares weighted by `m + xy` and `m - xy`
  have h5 : 0 ≤ (m + P.xy) * (u + v) ^ 2 := mul_nonneg (by linarith) (sq_nonneg _)
  have h6 : 0 ≤ (m - P.xy) * (u - v) ^ 2 := mul_nonneg (by linarith) (sq_nonneg _)
  have h7 : P.form u v = (P.xx - m) * u ^ 2 + (P.yy - m) * v ^ 2 +
      ((m + P.xy) * (u + v) ^ 2 + (m - P.xy) * (u - v) ^ 2) / 2 := by
    simp only [form]
    ring
  rw [h7]
  linarith

end Cov

end Lib
