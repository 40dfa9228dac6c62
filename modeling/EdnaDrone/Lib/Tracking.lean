import EdnaDrone.Lib.Covariance

/-!
# Errors that a covariance covers

A covariance covers the error `(x, y)` with the factor `c` if the square of every combination of `x` and
`y` is at most `c` times the variance of that combination. The steps of a filter move the error as they
move the covariance, so the factor stays; noise that is large against the covariance makes it smaller.
-/

namespace Lib

namespace Cov

variable {K : Type*} [Field K] [LinearOrder K] {P : Cov K} {c x y : K}

def Covers (P : Cov K) (c x y : K) : Prop := ∀ u v, (u * x + v * y) ^ 2 ≤ c * P.form u v

theorem Covers.sq_le_xx (h : P.Covers c x y) : x ^ 2 ≤ c * P.xx := by
  have h1 := h 1 0
  rwa [form_one_zero, one_mul, zero_mul, add_zero] at h1

theorem Covers.sq_le_yy (h : P.Covers c x y) : y ^ 2 ≤ c * P.yy := by
  have h1 := h 0 1
  rwa [form_zero_one, zero_mul, one_mul, zero_add] at h1

theorem Covers.shear (h : P.Covers c x y) (a : K) : (P.shear a).Covers c (x + a * y) y := by
  intro u v
  rw [form_shear]
  have heq : u * (x + a * y) + v * y = u * x + (v + a * u) * y := by ring
  rw [heq]
  exact h u (v + a * u)

variable [IsStrictOrderedRing K]

/-- Noise of at least `m` times the covariance divides the factor by `1 + m`. -/
theorem Covers.addNoise {m nx ny : K} (h : P.Covers c x y) (hc : 0 ≤ c) (hm : 0 ≤ m)
    (hdom : ∀ u v, m * P.form u v ≤ nx * u ^ 2 + ny * v ^ 2) :
    (P.addNoise nx ny).Covers (c / (1 + m)) x y := by
  intro u v
  have hpos : 0 < 1 + m := by linarith
  have hgrow : (1 + m) * P.form u v ≤ (P.addNoise nx ny).form u v := by
    rw [form_addNoise]
    linarith [hdom u v]
  calc (u * x + v * y) ^ 2 ≤ c * P.form u v := h u v
    _ = c / (1 + m) * ((1 + m) * P.form u v) := by field_simp
    _ ≤ c / (1 + m) * (P.addNoise nx ny).form u v :=
      mul_le_mul_of_nonneg_left hgrow (div_nonneg hc hpos.le)

/-- The correction of the estimates by the reading, with the gains of `observe`. -/
theorem Covers.observe {r : K} (h : P.Covers c x y) (hc : 0 ≤ c) (hr : 0 ≤ r) (hS : P.xx + r ≠ 0) :
    (P.observe r).Covers c (x - P.xx / (P.xx + r) * x) (y - P.xy / (P.xx + r) * x) := by
  intro u v
  have hopt := form_observe hS u v ((P.xx * u + P.xy * v) / (P.xx + r))
  rw [sub_self, zero_pow two_ne_zero, mul_zero, add_zero] at hopt
  have hle : P.form (u - (P.xx * u + P.xy * v) / (P.xx + r)) v ≤ (P.observe r).form u v := by
    rw [← hopt]
    exact le_add_of_nonneg_right (mul_nonneg hr (sq_nonneg _))
  have heq : u * (x - P.xx / (P.xx + r) * x) + v * (y - P.xy / (P.xx + r) * x) =
      (u - (P.xx * u + P.xy * v) / (P.xx + r)) * x + v * y := by
    field_simp
    ring
  rw [heq]
  exact (h _ v).trans (mul_le_mul_of_nonneg_left hle hc)

/-- Noise on both variables covers every error. -/
theorem PosSemidef.covers_addNoise {nx ny : K} (h : P.PosSemidef) (hx : 0 < nx) (hy : 0 < ny)
    (x y : K) : (P.addNoise nx ny).Covers (x ^ 2 / nx + y ^ 2 / ny) x y := by
  intro u v
  have hc : 0 ≤ x ^ 2 / nx + y ^ 2 / ny :=
    add_nonneg (div_nonneg (sq_nonneg x) hx.le) (div_nonneg (sq_nonneg y) hy.le)
  -- what is left of the product of the two sums is a square
  have hgap : (x ^ 2 / nx + y ^ 2 / ny) * (nx * u ^ 2 + ny * v ^ 2) - (u * x + v * y) ^ 2 =
      (nx * u * y - ny * v * x) ^ 2 / (nx * ny) := by
    field_simp
    ring
  have hgap0 : 0 ≤ (nx * u * y - ny * v * x) ^ 2 / (nx * ny) :=
    div_nonneg (sq_nonneg _) (mul_pos hx hy).le
  have hform := mul_nonneg hc (h u v)
  rw [form_addNoise, mul_add]
  linarith

end Cov

end Lib
