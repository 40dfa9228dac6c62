import EdnaDrone.Lib.Covariance
import Mathlib.Topology.Algebra.Order.LiminfLimsup
import Mathlib.Topology.Instances.Real.Lemmas
import Mathlib.Topology.Order.MonotoneConvergence

/-!
# The covariance of a filter with a constant time step

Each step applies the same map to the covariance. The map is monotone, as an estimator that is good
for a larger covariance is at least as good for a smaller one. So from no uncertainty at all the
covariances grow, and if anything bounds them they converge to the least fixed point.
-/

namespace Lib

namespace Cov

open Filter Topology

section Field

variable {K : Type*} [Field K]

/-- A shear, noise, and a reading of the first variable. -/
def riccati (a nx ny r : K) (P : Cov K) : Cov K := ((P.shear a).addNoise nx ny).observe r

/-- The covariance of what is known exactly. -/
def exact : Cov K := ⟨0, 0, 0⟩

theorem form_exact (u v : K) : (exact : Cov K).form u v = 0 := by simp [form, exact]

/-- The covariance after `n` steps. -/
def riccatiIter (a nx ny r : K) (n : ℕ) : Cov K := (riccati a nx ny r)^[n] exact

theorem riccatiIter_succ (a nx ny r : K) (n : ℕ) :
    riccatiIter a nx ny r (n + 1) = riccati a nx ny r (riccatiIter a nx ny r n) :=
  Function.iterate_succ_apply' _ _ _

end Field

section Order

variable {K : Type*} [Field K] [LinearOrder K] {P Q : Cov K} {a nx ny r : K}

theorem posSemidef_exact : (exact : Cov K).PosSemidef := fun u v => (form_exact u v).ge

theorem Below.shear (h : P.Below Q) (a : K) : (P.shear a).Below (Q.shear a) := by
  intro u v
  rw [form_shear, form_shear]
  exact h _ _

variable [IsStrictOrderedRing K]

theorem Below.addNoise (h : P.Below Q) (nx ny : K) : (P.addNoise nx ny).Below (Q.addNoise nx ny) := by
  intro u v
  rw [form_addNoise, form_addNoise]
  linarith [h u v]

/-- The estimator that is optimal for `Q` does no worse for `P`. -/
theorem Below.observe (h : P.Below Q) (hP : 0 < P.xx + r) (hQ : 0 < Q.xx + r) :
    (P.observe r).Below (Q.observe r) := by
  intro u v
  have hopt := form_observe hQ.ne' u v ((Q.xx * u + Q.xy * v) / (Q.xx + r))
  rw [sub_self, zero_pow two_ne_zero, mul_zero, add_zero] at hopt
  have hle := form_observe_le hP u v ((Q.xx * u + Q.xy * v) / (Q.xx + r))
  have hPQ := h (u - (Q.xx * u + Q.xy * v) / (Q.xx + r)) v
  linarith

/-- What the noise of the steps has to be. -/
structure Noisy (nx ny r : K) : Prop where
  nx : 0 ≤ nx
  ny : 0 ≤ ny
  r : 0 < r

theorem PosSemidef.riccati (hP : P.PosSemidef) (h : Noisy nx ny r) (a : K) :
    (riccati a nx ny r P).PosSemidef :=
  ((hP.shear a).addNoise h.nx h.ny).observe h.r

theorem PosSemidef.prior_pos (hP : P.PosSemidef) (h : Noisy nx ny r) (a : K) :
    0 < ((P.shear a).addNoise nx ny).xx + r :=
  add_pos_of_nonneg_of_pos ((hP.shear a).addNoise h.nx h.ny).xx_nonneg h.r

theorem Below.riccati (hPQ : P.Below Q) (hP : P.PosSemidef) (hQ : Q.PosSemidef) (h : Noisy nx ny r)
    (a : K) : (riccati a nx ny r P).Below (riccati a nx ny r Q) :=
  ((hPQ.shear a).addNoise nx ny).observe (hP.prior_pos h a) (hQ.prior_pos h a)

theorem posSemidef_riccatiIter (h : Noisy nx ny r) (a : K) (n : ℕ) :
    (riccatiIter a nx ny r n).PosSemidef := by
  induction n with
  | zero => exact posSemidef_exact
  | succ n ih =>
    rw [riccatiIter_succ]
    exact ih.riccati h a

/-- The covariances grow from step to step. -/
theorem riccatiIter_below_succ (h : Noisy nx ny r) (a : K) (n : ℕ) :
    (riccatiIter a nx ny r n).Below (riccatiIter a nx ny r (n + 1)) := by
  induction n with
  | zero =>
    intro u v
    rw [show riccatiIter a nx ny r 0 = exact from rfl, form_exact]
    exact posSemidef_riccatiIter h a 1 u v
  | succ n ih =>
    have hstep := ih.riccati (posSemidef_riccatiIter h a n) (posSemidef_riccatiIter h a (n + 1)) h a
    rwa [← riccatiIter_succ, ← riccatiIter_succ] at hstep

/-- They stay below every fixed point. -/
theorem riccatiIter_below_fixed (h : Noisy nx ny r) (hQ : Q.PosSemidef)
    (hfix : riccati a nx ny r Q = Q) (n : ℕ) : (riccatiIter a nx ny r n).Below Q := by
  induction n with
  | zero =>
    intro u v
    rw [show riccatiIter a nx ny r 0 = exact from rfl, form_exact]
    exact hQ u v
  | succ n ih =>
    have hstep := ih.riccati (posSemidef_riccatiIter h a n) hQ h a
    rwa [hfix, ← riccatiIter_succ] at hstep

end Order

/-! ## The limit -/

variable {P B : Cov ℝ} {a nx ny r : ℝ}

/-- The entries are determined by the form. -/
theorem xy_eq_form (P : Cov ℝ) : P.xy = (P.form 1 1 - P.form 1 0 - P.form 0 1) / 2 := by
  simp only [form]
  ring

/-- Entrywise convergence. -/
structure TendsTo (Ps : ℕ → Cov ℝ) (P : Cov ℝ) : Prop where
  xx : Tendsto (fun n => (Ps n).xx) atTop (𝓝 P.xx)
  xy : Tendsto (fun n => (Ps n).xy) atTop (𝓝 P.xy)
  yy : Tendsto (fun n => (Ps n).yy) atTop (𝓝 P.yy)

theorem TendsTo.form {Ps : ℕ → Cov ℝ} (h : TendsTo Ps P) (u v : ℝ) :
    Tendsto (fun n => (Ps n).form u v) atTop (𝓝 (P.form u v)) :=
  ((h.xx.mul_const _).add ((h.xy.const_mul 2).mul_const _)).add (h.yy.mul_const _)

/-- Covariances that grow and stay below a bound converge, and stay below their limit. -/
theorem exists_tendsTo_of_below {Ps : ℕ → Cov ℝ} (hmono : ∀ n, (Ps n).Below (Ps (n + 1)))
    (hB : ∀ n, (Ps n).Below B) : ∃ P, TendsTo Ps P ∧ ∀ n, (Ps n).Below P := by
  have hlim : ∀ u v, Tendsto (fun n => (Ps n).form u v) atTop (𝓝 (⨆ n, (Ps n).form u v)) := by
    intro u v
    refine tendsto_atTop_ciSup (monotone_nat_of_le_succ fun n => hmono n u v) ?_
    exact ⟨B.form u v, by rintro _ ⟨n, rfl⟩; exact hB n u v⟩
  let L : ℝ → ℝ → ℝ := fun u v => ⨆ n, (Ps n).form u v
  have hxx : Tendsto (fun n => (Ps n).xx) atTop (𝓝 (L 1 0)) :=
    (hlim 1 0).congr fun n => form_one_zero
  have hyy : Tendsto (fun n => (Ps n).yy) atTop (𝓝 (L 0 1)) :=
    (hlim 0 1).congr fun n => form_zero_one
  have hxy : Tendsto (fun n => (Ps n).xy) atTop (𝓝 ((L 1 1 - L 1 0 - L 0 1) / 2)) := by
    simp only [xy_eq_form]
    exact (((hlim 1 1).sub (hlim 1 0)).sub (hlim 0 1)).div_const 2
  have htends : TendsTo Ps ⟨L 1 0, (L 1 1 - L 1 0 - L 0 1) / 2, L 0 1⟩ := ⟨hxx, hxy, hyy⟩
  refine ⟨_, htends, ?_⟩
  intro n u v
  exact (monotone_nat_of_le_succ fun n => hmono n u v).ge_of_tendsto (htends.form u v) n

theorem TendsTo.posSemidef {Ps : ℕ → Cov ℝ} (h : TendsTo Ps P) (hPs : ∀ n, (Ps n).PosSemidef) :
    P.PosSemidef := fun u v => ge_of_tendsto' (h.form u v) fun n => hPs n u v

theorem TendsTo.riccati {Ps : ℕ → Cov ℝ} (h : TendsTo Ps P)
    (hP : ((P.shear a).addNoise nx ny).xx + r ≠ 0) :
    TendsTo (fun n => riccati a nx ny r (Ps n)) (riccati a nx ny r P) := by
  have hxx : Tendsto (fun n => (((Ps n).shear a).addNoise nx ny).xx) atTop
      (𝓝 ((P.shear a).addNoise nx ny).xx) :=
    ((h.xx.add ((h.xy.const_mul a).const_mul 2)).add (h.yy.const_mul (a ^ 2))).add_const nx
  have hxy : Tendsto (fun n => (((Ps n).shear a).addNoise nx ny).xy) atTop
      (𝓝 ((P.shear a).addNoise nx ny).xy) := h.xy.add (h.yy.const_mul a)
  have hyy : Tendsto (fun n => (((Ps n).shear a).addNoise nx ny).yy) atTop
      (𝓝 ((P.shear a).addNoise nx ny).yy) := h.yy.add_const ny
  have hS := hxx.add_const r
  exact ⟨hxx.sub ((hxx.div hS hP).mul hxx), hxy.sub ((hxx.div hS hP).mul hxy),
    hyy.sub ((hxy.div hS hP).mul hxy)⟩

theorem TendsTo.unique {Ps : ℕ → Cov ℝ} {Q : Cov ℝ} (h : TendsTo Ps P) (h' : TendsTo Ps Q) :
    P = Q := by
  have hxx := tendsto_nhds_unique h.xx h'.xx
  have hxy := tendsto_nhds_unique h.xy h'.xy
  have hyy := tendsto_nhds_unique h.yy h'.yy
  cases P
  cases Q
  rw [Cov.mk.injEq]
  exact ⟨hxx, hxy, hyy⟩

theorem TendsTo.succ {Ps : ℕ → Cov ℝ} (h : TendsTo Ps P) : TendsTo (fun n => Ps (n + 1)) P :=
  ⟨(tendsto_add_atTop_iff_nat 1).2 h.xx, (tendsto_add_atTop_iff_nat 1).2 h.xy,
    (tendsto_add_atTop_iff_nat 1).2 h.yy⟩

/-- The covariances converge to the least fixed point of the step, if they are bounded. -/
theorem riccatiIter_tendsTo (h : Noisy nx ny r) (hB : ∀ n, (riccatiIter a nx ny r n).Below B) :
    ∃ P, TendsTo (riccatiIter a nx ny r) P ∧ (∀ n, (riccatiIter a nx ny r n).Below P) ∧
      P.PosSemidef ∧ riccati a nx ny r P = P ∧
        ∀ Q : Cov ℝ, Q.PosSemidef → riccati a nx ny r Q = Q → P.Below Q := by
  obtain ⟨P, htends, hbelow⟩ := exists_tendsTo_of_below (riccatiIter_below_succ h a) hB
  have hpsd : P.PosSemidef := htends.posSemidef (posSemidef_riccatiIter h a)
  have hfix : riccati a nx ny r P = P := by
    have hnext := htends.riccati (hpsd.prior_pos h a).ne'
    have heq : (fun n => riccati a nx ny r (riccatiIter a nx ny r n)) =
        fun n => riccatiIter a nx ny r (n + 1) :=
      funext fun n => (riccatiIter_succ a nx ny r n).symm
    rw [heq] at hnext
    exact hnext.unique htends.succ
  refine ⟨P, htends, hbelow, hpsd, hfix, ?_⟩
  intro Q hQ hQfix u v
  exact le_of_tendsto' (htends.form u v) fun n => riccatiIter_below_fixed h hQ hQfix n u v

end Cov

end Lib
