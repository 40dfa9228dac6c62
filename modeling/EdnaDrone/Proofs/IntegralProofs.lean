import EdnaDrone.Proofs.DerivativeProofs
import EdnaDrone.Proofs.YawProofs

/-!
# The integral gain has no effect

`config.h` sets the integral limit to zero, so the anti-windup clamp takes every sum of errors back to a
zero and the integral term with it. Two runs of `pid_update` that differ in `ki` only give outputs that
compare equal, up to an infinite `ki`, which makes NaNs of them.
-/

namespace EdnaDrone

open Lib CNum

open Lib.Flt hiding ofRat abs

/-- `pid_reset` of a PID set up by `flight_controller_init`, with gains installed by `pid_set_gains`. -/
def tunedPid (kp₀ ki₀ kd₀ kp ki : CFloat) : PidState CFloat :=
  pidReset (pidSetGains (pidInit kp₀ ki₀ kd₀) kp ki (ofRat 0))

/-- The output `x` is strictly farther in the direction of the error `e` than `y`. -/
def FartherToward (e x y : CFloat) : Prop := (ofRat 0 < e ∧ y < x) ∨ (e < ofRat 0 ∧ x < y)

instance (e x y : CFloat) : Decidable (FartherToward e x y) :=
  inferInstanceAs (Decidable (_ ∨ _))

theorem not_fartherToward {e x y : CFloat} (h : x.key = y.key ∨ x = .nan) : ¬ FartherToward e x y := by
  rcases h with h | rfl
  · rintro (⟨-, hlt⟩ | ⟨-, hlt⟩)
    · exact not_lt_of_key_eq h.symm hlt
    · exact not_lt_of_key_eq h hlt
  · rintro (⟨-, hlt⟩ | ⟨-, hlt⟩)
    · exact not_lt_nan _ hlt
    · exact not_nan_lt _ hlt

/-! ## One step -/

theorem clampSym_nan (limit : CFloat) : clampSym .nan limit = .nan := by
  unfold clampSym
  rw [if_neg (not_lt_nan _), if_neg (not_nan_lt _)]

/-- Two PIDs that differ in `ki` and in the sign of their integrals, which are zeros and stay zeros; one
has `ki = 0`. -/
structure DeadIntegral (p q : PidState CFloat) : Prop where
  integral : p.integral.IsZero ∧ q.integral.IsZero
  limit : p.integralLimit.IsZero ∧ q.integralLimit.IsZero
  kp : p.kp = q.kp
  ki : q.ki.IsZero
  kd : p.kd.IsZero ∧ p.kd = q.kd
  prevError : p.prevError = q.prevError
  outputLimit : p.outputLimit = q.outputLimit

/-- The proportional and the integral term sum to numbers with one key, or `ki` is infinite. -/
theorem DeadIntegral.key_sum {p q : PidState CFloat} (h : DeadIntegral p q) {e dt : CFloat}
    (he : (e * dt).IsNum) :
    (p.kp * e + p.ki * pidIntegral p e dt).key = (q.kp * e + q.ki * pidIntegral q e dt).key ∨
      p.kp * e + p.ki * pidIntegral p e dt = .nan := by
  have hp := isZero_pidIntegral_of_isNum h.integral.1 h.limit.1 he
  have hq := isZero_pidIntegral_of_isNum h.integral.2 h.limit.2 he
  have hq' : (q.ki * pidIntegral q e dt).IsZero := h.ki.mul_finite (hq.bounded 0).isFinite
  rw [← h.kp]
  by_cases hki : p.ki.IsFinite
  · left
    have hp' : (p.ki * pidIntegral p e dt).IsZero := hki.mul_isZero hp
    by_cases hnum : (p.kp * e).IsNum
    · rw [key_add_isZero hnum hp', key_add_isZero hnum hq']
    · have hnan : p.kp * e = .nan := not_not.1 hnum
      rw [hnan]
      rfl
  · right
    -- an infinite gain times a zero is a NaN
    have hnan : p.ki * pidIntegral p e dt = .nan := by
      rcases hk : p.ki with _ | s | ⟨s, a⟩
      · rfl
      · exact inf_mul_isZero s hp
      · rw [hk] at hki
        exact absurd trivial hki
    rw [hnan, add_nan]

theorem DeadIntegral.key_output {p q : PidState CFloat} (h : DeadIntegral p q)
    {setpoint measurement dt : CFloat} (he : (pidError setpoint measurement * dt).IsNum) :
    (pidUpdate p setpoint measurement dt).2.key = (pidUpdate q setpoint measurement dt).2.key ∨
      (pidUpdate p setpoint measurement dt).2 = .nan := by
  have hd : pidDTerm p (pidError setpoint measurement) dt =
      pidDTerm q (pidError setpoint measurement) dt := by
    unfold pidDTerm
    rw [h.kd.2, h.prevError]
  show (clampSym (pidRaw p _ dt) _).key = (clampSym (pidRaw q _ dt) _).key ∨
    clampSym (pidRaw p _ dt) _ = .nan
  unfold pidRaw
  rw [← hd, ← h.outputLimit]
  rcases h.key_sum he with hkey | hnan
  · left
    exact key_clampSym _ (key_add_congr _ hkey)
  · right
    rw [hnan]
    exact clampSym_nan _

theorem DeadIntegral.next {p q : PidState CFloat} (h : DeadIntegral p q)
    {setpoint measurement dt : CFloat} (he : (pidError setpoint measurement * dt).IsNum) :
    DeadIntegral (pidUpdate p setpoint measurement dt).1 (pidUpdate q setpoint measurement dt).1 where
  integral := ⟨isZero_pidIntegral_of_isNum h.integral.1 h.limit.1 he,
    isZero_pidIntegral_of_isNum h.integral.2 h.limit.2 he⟩
  limit := h.limit
  kp := h.kp
  ki := h.ki
  kd := h.kd
  prevError := rfl
  outputLimit := h.outputLimit

/-! ## Runs -/

theorem DeadIntegral.outputs {p q : PidState CFloat} (h : DeadIntegral p q)
    {xs : List (PidInput CFloat)}
    (hxs : ∀ x ∈ xs, (pidError x.setpoint x.measurement * x.dt).IsNum) :
    List.Forall₂ (fun x y : CFloat => x.key = y.key ∨ x = .nan) (pidOutputs p xs)
      (pidOutputs q xs) := by
  induction xs generalizing p q with
  | nil => exact List.Forall₂.nil
  | cons x xs ih =>
    have hx := hxs x List.mem_cons_self
    exact List.Forall₂.cons (h.key_output hx)
      (ih (h.next hx) fun y hy => hxs y (List.mem_cons_of_mem _ hy))

theorem deadIntegral_tunedPid (kp₀ ki₀ kd₀ kp ki : CFloat) :
    DeadIntegral (tunedPid kp₀ ki₀ kd₀ kp ki) (tunedPid kp₀ ki₀ kd₀ kp (ofRat 0)) where
  integral := ⟨isZero_ofRat_zero, isZero_ofRat_zero⟩
  limit := ⟨isZero_ofRat_zero, isZero_ofRat_zero⟩
  kp := rfl
  ki := isZero_ofRat_zero
  kd := ⟨isZero_ofRat_zero, rfl⟩
  prevError := rfl
  outputLimit := rfl

/-- Whatever the gains, the time steps and the constant error, no output is any farther toward the error
than it is without the integral gain. -/
theorem integral_gain_never_works (kp₀ ki₀ kd₀ kp ki : CFloat) {e : CFloat}
    {xs : List (PidInput CFloat)} (he : ofRat 0 < e ∨ e < ofRat 0)
    (hxs : ∀ x ∈ xs, pidError x.setpoint x.measurement = e ∧ ofRat 0 < x.dt) :
    List.Forall₂ (fun out out₀ => ¬ FartherToward e out out₀)
      (pidOutputs (tunedPid kp₀ ki₀ kd₀ kp ki) xs)
      (pidOutputs (tunedPid kp₀ ki₀ kd₀ kp (ofRat 0)) xs) := by
  have hz : (ofRat 0 : CFloat).IsZero := isZero_ofRat_zero
  have henum : e.IsNum := by
    rcases he with he | he
    · exact (isNum_of_lt he).2
    · exact (isNum_of_lt he).1
  have hprod : ∀ x ∈ xs, (pidError x.setpoint x.measurement * x.dt).IsNum := by
    intro x hx
    obtain ⟨herr, hdt⟩ := hxs x hx
    rw [herr]
    exact mul_isNum_of_ne henum (isNum_of_lt hdt).2 (not_isZero_of_lt hz he)
      (not_isZero_of_lt hz (.inl hdt))
  exact ((deadIntegral_tunedPid kp₀ ki₀ kd₀ kp ki).outputs hprod).imp
    fun _ _ h => not_fartherToward h

/-- One step at the default gains with an error of one degree. -/
theorem integral_gain_never_works_default :
    List.Forall₂ (fun out out₀ => ¬ FartherToward (ofRat 1) out out₀)
      (pidOutputs (tunedPid (ofRat 2) (ofRat (1 / 10)) (ofRat 0) (ofRat 2) (ofRat (1 / 10)))
        [⟨ofRat 1, ofRat 0, ofRat (1 / 100)⟩])
      (pidOutputs (tunedPid (ofRat 2) (ofRat (1 / 10)) (ofRat 0) (ofRat 2) (ofRat 0))
        [⟨ofRat 1, ofRat 0, ofRat (1 / 100)⟩]) := by
  refine integral_gain_never_works _ _ _ _ _ (.inl (by decide +kernel)) ?_
  intro x hx
  rw [List.mem_singleton.1 hx]
  exact ⟨by decide +kernel, by decide +kernel⟩

/-- The default gains, an error of one degree and a step of 10 ms: both outputs are 2. -/
theorem integral_gain_is_dead :
    ¬ ∀ (kp₀ ki₀ kd₀ kp ki e : CFloat) (xs : List (PidInput CFloat)), ofRat 0 < ki →
      (ofRat 0 < e ∨ e < ofRat 0) → xs ≠ [] →
      (∀ x ∈ xs, pidError x.setpoint x.measurement = e ∧ ofRat 0 < x.dt) →
      (∀ out ∈ pidOutputs (tunedPid kp₀ ki₀ kd₀ kp ki) xs,
        -ofRat pidOutputLimit < out ∧ out < ofRat pidOutputLimit) →
      List.Forall₂ (FartherToward e) (pidOutputs (tunedPid kp₀ ki₀ kd₀ kp ki) xs)
        (pidOutputs (tunedPid kp₀ ki₀ kd₀ kp (ofRat 0)) xs) := by
  intro h
  have h1 := h (ofRat 2) (ofRat (1 / 10)) (ofRat 0) (ofRat 2) (ofRat (1 / 10)) (ofRat 1)
    [⟨ofRat 1, ofRat 0, ofRat (1 / 100)⟩] (by decide +kernel) (.inl (by decide +kernel)) (by simp)
    (by
      intro x hx
      rw [List.mem_singleton.1 hx]
      exact ⟨by decide +kernel, by decide +kernel⟩)
    (by
      intro out hout
      rw [List.mem_singleton.1 hout]
      exact ⟨by decide +kernel, by decide +kernel⟩)
  have h2 := (List.forall₂_cons.1 h1).1
  revert h2
  decide +kernel

end EdnaDrone
