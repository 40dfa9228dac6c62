import Mathlib

/-!
# The angle of a moving point

The angle of a point in the plane, as `Complex.arg` measures it, jumps by a full turn at the branch cut.
An angle changes at a rate if, up to full turns, it is locally a function with that derivative. So does
the angle of every moving point off the origin, at the rate that the cross product of position and
velocity gives.
-/

namespace Lib

open Complex Filter Topology Real

/-- Around `t`, `angle` is up to full turns of `T` a function with the derivative `rate` at `t`. -/
def ChangesAtRate (T : ℝ) (angle : ℝ → ℝ) (rate t : ℝ) : Prop :=
  ∃ lift : ℝ → ℝ, HasDerivAt lift rate t ∧ ∀ᶠ s in 𝓝 t, ∃ n : ℤ, angle s = lift s + n * T

variable {T rate t : ℝ} {angle x y : ℝ → ℝ} {x' y' : ℝ}

theorem changesAtRate_of_hasDerivAt (h : HasDerivAt angle rate t) : ChangesAtRate T angle rate t :=
  ⟨angle, h, Eventually.of_forall fun s => ⟨0, by simp⟩⟩

/-- The angle in other units. -/
theorem ChangesAtRate.mul_const (h : ChangesAtRate T angle rate t) (c : ℝ) :
    ChangesAtRate (T * c) (fun s => angle s * c) (rate * c) t := by
  obtain ⟨lift, hlift, hnear⟩ := h
  refine ⟨fun s => lift s * c, hlift.mul_const c, hnear.mono ?_⟩
  rintro s ⟨n, hn⟩
  refine ⟨n, ?_⟩
  show angle s * c = lift s * c + n * (T * c)
  rw [hn]
  ring

/-- An angle that stays where it is changes at no rate but 0. -/
theorem ChangesAtRate.eq_zero_of_const {a : ℝ} (hT : 0 < T)
    (h : ChangesAtRate T (fun _ => a) rate t) : rate = 0 := by
  obtain ⟨lift, hlift, hnear⟩ := h
  -- near `t` the lift takes values a full turn apart, so it is constant
  have hclose : ∀ᶠ s in 𝓝 t, |lift s - lift t| < T := by
    have hcont := hlift.continuousAt.sub_const (lift t)
    have habs : ContinuousAt (fun s => |lift s - lift t|) t := hcont.abs
    refine habs.eventually_lt continuousAt_const ?_
    rwa [sub_self, abs_zero]
  have hconst : lift =ᶠ[𝓝 t] fun _ => lift t := by
    obtain ⟨m, hm⟩ := hnear.self_of_nhds
    filter_upwards [hclose, hnear] with s hs hn
    obtain ⟨n, hn⟩ := hn
    have hdiff : lift s - lift t = ((m - n : ℤ) : ℝ) * T := by
      push_cast
      linarith
    rw [hdiff, abs_mul, abs_of_pos hT, ← Int.cast_abs] at hs
    have hlt : ((|m - n| : ℤ) : ℝ) < 1 := by
      by_contra hge
      nlinarith
    have hzero : m - n = 0 := Int.abs_lt_one_iff.1 (by exact_mod_cast hlt)
    rw [hzero, Int.cast_zero, zero_mul] at hdiff
    linarith
  exact hlift.unique ((hasDerivAt_const t (lift t)).congr_of_eventuallyEq hconst)

/-! ## The angle of a moving point -/

theorem hasDerivAt_mk (hx : HasDerivAt x x' t) (hy : HasDerivAt y y' t) :
    HasDerivAt (fun s => (⟨x s, y s⟩ : ℂ)) ⟨x', y'⟩ t := by
  have hsum := hx.ofReal_comp.add (hy.ofReal_comp.mul_const I)
  have hpoint : ∀ a b : ℝ, (⟨a, b⟩ : ℂ) = a + b * I := fun a b => mk_eq_add_mul_I a b
  simp only [hpoint]
  exact hsum

/-- Away from the branch cut the angle is differentiable. -/
theorem hasDerivAt_arg (hx : HasDerivAt x x' t) (hy : HasDerivAt y y' t)
    (h : 0 < x t ∨ y t ≠ 0) :
    HasDerivAt (fun s => arg ⟨x s, y s⟩) ((x t * y' - y t * x') / (x t ^ 2 + y t ^ 2)) t := by
  have hlog := (hasDerivAt_mk hx hy).clog_real h
  have him : HasDerivAt (fun s => (log ⟨x s, y s⟩).im) ((⟨x', y'⟩ : ℂ) / ⟨x t, y t⟩).im t :=
    imCLM.hasFDerivAt.comp_hasDerivAt t hlog
  have hrate : ((⟨x', y'⟩ : ℂ) / ⟨x t, y t⟩).im =
      (x t * y' - y t * x') / (x t ^ 2 + y t ^ 2) := by
    rw [div_im, normSq_mk]
    ring
  rw [hrate] at him
  simpa only [log_im] using him

/-- Everywhere but at the origin the angle changes at its rate, up to full turns. -/
theorem changesAtRate_arg (hx : HasDerivAt x x' t) (hy : HasDerivAt y y' t)
    (h : x t ≠ 0 ∨ y t ≠ 0) :
    ChangesAtRate (2 * π) (fun s => arg ⟨x s, y s⟩)
      ((x t * y' - y t * x') / (x t ^ 2 + y t ^ 2)) t := by
  by_cases hcut : 0 < x t ∨ y t ≠ 0
  · exact changesAtRate_of_hasDerivAt (hasDerivAt_arg hx hy hcut)
  -- on the cut, the opposite point is off the cut, and half a turn away
  · rw [not_or, not_not] at hcut
    have hneg : x t < 0 := lt_of_le_of_ne (not_lt.1 hcut.1) (h.resolve_right (not_not.2 hcut.2))
    have hopp := hasDerivAt_arg hx.neg hy.neg (Or.inl (neg_pos.2 hneg))
    refine ⟨fun s => arg ⟨-x s, -y s⟩ + π, ?_, ?_⟩
    · refine (hopp.add_const π).congr_deriv ?_
      simp only [Pi.neg_apply]
      ring_nf
    · filter_upwards [hx.continuousAt.eventually_ne hneg.ne] with s hs
      have hpoint : (⟨-x s, -y s⟩ : ℂ) ≠ 0 := fun h0 => hs (neg_eq_zero.1 (congrArg re h0))
      have hangle := arg_neg_coe_angle hpoint
      have hback : -(⟨-x s, -y s⟩ : ℂ) = ⟨x s, y s⟩ := by
        apply Complex.ext
        · exact neg_neg (x s)
        · exact neg_neg (y s)
      rw [hback, ← Real.Angle.coe_add, Real.Angle.angle_eq_iff_two_pi_dvd_sub] at hangle
      obtain ⟨n, hn⟩ := hangle
      exact ⟨n, by linarith⟩

/-- The distance from the origin of a point on the positive abscissa changes as the abscissa does. -/
theorem hasDerivAt_dist (hx : HasDerivAt x x' t) (hy : HasDerivAt y y' t) (hpos : 0 < x t)
    (hzero : y t = 0) : HasDerivAt (fun s => √(y s * y s + x s * x s)) x' t := by
  have hsq := (hy.fun_mul hy).fun_add (hx.fun_mul hx)
  have hval : y t * y t + x t * x t = x t * x t := by
    rw [hzero, zero_mul, zero_add]
  have hne : y t * y t + x t * x t ≠ 0 := by
    rw [hval]
    exact (mul_pos hpos hpos).ne'
  refine (hsq.sqrt hne).congr_deriv ?_
  rw [hval, Real.sqrt_mul_self hpos.le, hzero]
  field_simp
  ring

end Lib
