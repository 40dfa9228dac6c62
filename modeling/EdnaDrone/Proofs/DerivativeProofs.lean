import EdnaDrone.Proofs.FloatProofs

/-!
# What the derivative term acts on

Two runs of `pid_update` without proportional and integral term, on the same measurements and time
steps and with setpoints of their own. The derivative is taken of the error, so the outputs agree as
long as the errors change alike, and otherwise only where the gain or the time step rounds the
difference away or the output limit hides it.
-/

namespace EdnaDrone

open Lib CNum

open Lib.Flt hiding ofRat abs

/-! ## Runs of `pid_update` -/

/-- The arguments of one call. -/
structure PidInput (F : Type) where
  setpoint : F
  measurement : F
  dt : F

/-- The outputs of a sequence of calls. -/
def pidOutputs {F : Type} [Add F] [Sub F] [Mul F] [Div F] [Neg F] [LT F] [DecidableLT F] [CNum F]
    (p : PidState F) : List (PidInput F) → List F
  | [] => []
  | x :: xs =>
    let out := pidUpdate p x.setpoint x.measurement x.dt
    out.2 :: pidOutputs out.1 xs

/-- The arguments of one call in each of two runs that share measurements and time steps. -/
structure TwinInput (F : Type) where
  setpoint₁ : F
  setpoint₂ : F
  measurement : F
  dt : F

def TwinInput.fst {F : Type} (x : TwinInput F) : PidInput F := ⟨x.setpoint₁, x.measurement, x.dt⟩

def TwinInput.snd {F : Type} (x : TwinInput F) : PidInput F := ⟨x.setpoint₂, x.measurement, x.dt⟩

/-- The outputs are equal as numbers: zeros of both signs are one number, and so are two NaNs. -/
def SameOutputs (os₁ os₂ : List CFloat) : Prop := List.Forall₂ (fun x y => x.key = y.key) os₁ os₂

/-! ## The clamp -/

/-- The output limit hides the difference of two values. A limit that is not above zero, which no PID of
the firmware has, leaves of a value at most whether it is above the limit. -/
def HiddenByLimit (a b limit : CFloat) : Prop :=
  (ofRat 0 < limit ∧ (limit ≤ a ∧ limit ≤ b ∨ a ≤ -limit ∧ b ≤ -limit)) ∨
    (limit.IsZero ∧ a.IsNum ∧ b.IsNum) ∨
      (limit < ofRat 0 ∧ (limit < a ∧ limit < b ∨ a ≤ limit ∧ b ≤ limit))

section Clamp

variable {a b limit : CFloat}

theorem HiddenByLimit.isNum (h : HiddenByLimit a b limit) : a.IsNum ∧ b.IsNum ∧ limit.IsNum := by
  rcases h with ⟨h, ⟨ha, hb⟩ | ⟨ha, hb⟩⟩ | ⟨hl, ha, hb⟩ | ⟨h, ⟨ha, hb⟩ | ⟨ha, hb⟩⟩
  · exact ⟨(isNum_of_le ha).2, (isNum_of_le hb).2, (isNum_of_le ha).1⟩
  · exact ⟨(isNum_of_le ha).1, (isNum_of_le hb).1, (isNum_of_lt h).2⟩
  · exact ⟨ha, hb, (hl.bounded 0).isFinite.isNum⟩
  · exact ⟨(isNum_of_lt ha).2, (isNum_of_lt hb).2, (isNum_of_lt h).1⟩
  · exact ⟨(isNum_of_le ha).1, (isNum_of_le hb).1, (isNum_of_lt h).1⟩

/-- The clamp on the extended line. -/
theorem key_clampSym_of_key {x lo hi : WithBot (WithTop ℚ)} (ha : a.key = some x)
    (hhi : limit.key = some hi) (hlo : (-limit).key = some lo) :
    (clampSym a limit).key = some (if hi < x then hi else if x < lo then lo else x) := by
  unfold clampSym
  simp only [lt_iff_of_key hhi ha, lt_iff_of_key ha hlo]
  split_ifs
  · exact hhi
  · exact hlo
  · exact ha

theorem key_clampSym_eq_iff_of_isNum (ha : a.IsNum) (hb : b.IsNum) (hl : limit.IsNum) :
    (clampSym a limit).key = (clampSym b limit).key ↔ a.key = b.key ∨ HiddenByLimit a b limit := by
  obtain ⟨x, hx⟩ := ha.exists_key
  obtain ⟨y, hy⟩ := hb.exists_key
  obtain ⟨hi, hhi⟩ := hl.exists_key
  obtain ⟨lo, hlo⟩ := hl.neg.exists_key
  obtain ⟨hpos, hneg, hzero⟩ : (ofRat 0 < limit ↔ lo < hi) ∧ (limit < ofRat 0 ↔ hi < lo) ∧
      (limit.IsZero ↔ hi = lo) := sign_iff_key hhi hlo
  unfold HiddenByLimit
  rw [key_clampSym_of_key hx hhi hlo, key_clampSym_of_key hy hhi hlo, hx, hy, Option.some_inj,
    Option.some_inj, hpos, hneg, hzero, le_iff_of_key hhi hx, le_iff_of_key hhi hy,
    le_iff_of_key hx hlo, le_iff_of_key hy hlo, lt_iff_of_key hhi hx, lt_iff_of_key hhi hy,
    le_iff_of_key hx hhi, le_iff_of_key hy hhi]
  -- what is left is about the order of four points on a line
  grind

theorem key_clampSym_eq_iff (a b limit : CFloat) :
    (clampSym a limit).key = (clampSym b limit).key ↔ a.key = b.key ∨ HiddenByLimit a b limit := by
  by_cases hl : limit.IsNum
  swap
  · obtain rfl : limit = .nan := not_not.1 hl
    have hid : ∀ x : CFloat, clampSym x .nan = x := by
      intro x
      unfold clampSym
      rw [if_neg (not_nan_lt _)]
      exact if_neg (not_lt_nan x)
    rw [hid, hid]
    exact (or_iff_left fun h => hl h.isNum.2.2).symm
  have hnum : ∀ x : CFloat, (clampSym x limit).IsNum ↔ x.IsNum :=
    fun x => clampSym_isNum hl hl.neg
  by_cases ha : a.IsNum
  · by_cases hb : b.IsNum
    · exact key_clampSym_eq_iff_of_isNum ha hb hl
    · rw [key_eq_none_iff.2 hb, key_eq_none_iff.2 (mt (hnum b).1 hb), key_eq_none_iff,
        key_eq_none_iff, hnum]
      exact (or_iff_left fun h => hb h.isNum.2.1).symm
  · rw [key_eq_none_iff.2 ha, key_eq_none_iff.2 (mt (hnum a).1 ha), eq_comm, key_eq_none_iff, hnum,
      eq_comm (a := none), key_eq_none_iff]
    exact (or_iff_left fun h => ha h.isNum.1).symm

theorem isFinite_clampSym (ha : a.IsNum) (hl : limit.IsFinite) : (clampSym a limit).IsFinite := by
  unfold clampSym
  split_ifs with h1 h2
  · exact hl
  · exact hl.neg
  · exact IsFinite.of_between hl.neg hl (IsNum.le_of_not_lt ha hl.neg.isNum h2)
      (IsNum.le_of_not_lt hl.isNum ha h1)

end Clamp

/-! ## One step -/

/-- The derivative term of a call after another one: the change of the binary32 error, divided by the
time step and multiplied by the gain. -/
def kick (p : PidState CFloat) (x y : PidInput CFloat) : CFloat :=
  p.kd * ((pidError y.setpoint y.measurement - pidError x.setpoint x.measurement) / y.dt)

/-- The setpoints of two successive steps leave the outputs equal: the derivative terms are one number,
or the output limit hides their difference. -/
def SameKick (p : PidState CFloat) (x y : TwinInput CFloat) : Prop :=
  (kick p x.fst y.fst).key = (kick p x.snd y.snd).key ∨
    HiddenByLimit (kick p x.fst y.fst) (kick p x.snd y.snd) p.outputLimit

/-- A state that has only the derivative term left. -/
structure DerivativeOnly (p : PidState CFloat) : Prop where
  kp : p.kp.IsZero
  ki : p.ki.IsZero
  integral : p.integral.IsFinite
  integralLimit : p.integralLimit.IsFinite

/-- The errors are numbers and the time step is a positive one. -/
structure PidInput.Ok (x : PidInput CFloat) : Prop where
  error : (pidError x.setpoint x.measurement).IsFinite
  dt : x.dt.IsFinite ∧ ofRat 0 < x.dt

structure TwinInput.Ok (x : TwinInput CFloat) : Prop where
  fst : x.fst.Ok
  snd : x.snd.Ok

variable {p q : PidState CFloat}

theorem isFinite_pidIntegral (hp : DerivativeOnly p) {x : PidInput CFloat} (hx : x.Ok) :
    (pidIntegral p (pidError x.setpoint x.measurement) x.dt).IsFinite := by
  have hsum : (p.integral + pidError x.setpoint x.measurement * x.dt).IsNum := by
    rw [add_isNum_iff hp.integral.isNum (hx.error.mul_isNum hx.dt.1)]
    rintro s hs -
    have hint := hp.integral
    rw [hs] at hint
    exact hint
  exact isFinite_clampSym hsum hp.integralLimit

theorem key_pidUpdate (hp : DerivativeOnly p) {x : PidInput CFloat} (hx : x.Ok) :
    (pidUpdate p x.setpoint x.measurement x.dt).2.key =
      (clampSym (p.kd * ((pidError x.setpoint x.measurement - p.prevError) / x.dt))
        p.outputLimit).key := by
  have hP : (p.kp * pidError x.setpoint x.measurement).IsZero := hp.kp.mul_finite hx.error
  have hI : (p.ki * pidIntegral p (pidError x.setpoint x.measurement) x.dt).IsZero :=
    hp.ki.mul_finite (isFinite_pidIntegral hp hx)
  have hPI : (p.kp * pidError x.setpoint x.measurement +
      p.ki * pidIntegral p (pidError x.setpoint x.measurement) x.dt).IsZero :=
    hI.of_key_eq (key_zero_add hP)
  refine key_clampSym p.outputLimit ?_
  show (_ + pidDTerm p _ x.dt).key = _
  rw [key_zero_add hPI]
  unfold pidDTerm
  rw [if_pos hx.dt.2]

/-- The state of a run after the step `x`: it has kept the error and nothing else of the setpoint. -/
structure After (p : PidState CFloat) (x : PidInput CFloat) (q : PidState CFloat) : Prop where
  derivativeOnly : DerivativeOnly q
  kd : q.kd = p.kd
  outputLimit : q.outputLimit = p.outputLimit
  prevError : q.prevError = pidError x.setpoint x.measurement

theorem DerivativeOnly.next (hp : DerivativeOnly p) {x : PidInput CFloat} (hx : x.Ok) :
    After p x (pidUpdate p x.setpoint x.measurement x.dt).1 :=
  ⟨⟨hp.kp, hp.ki, isFinite_pidIntegral hp hx, hp.integralLimit⟩, rfl, rfl, rfl⟩

theorem After.next {x y : PidInput CFloat} (h : After p x q) (hy : y.Ok) :
    After p y (pidUpdate q y.setpoint y.measurement y.dt).1 := by
  obtain ⟨hq, hkd, hlim, herr⟩ := h.derivativeOnly.next hy
  exact ⟨hq, hkd.trans h.kd, hlim.trans h.outputLimit, herr⟩

theorem After.key_output {x y : PidInput CFloat} (h : After p x q) (hy : y.Ok) :
    (pidUpdate q y.setpoint y.measurement y.dt).2.key =
      (clampSym (kick p x y) p.outputLimit).key := by
  rw [key_pidUpdate h.derivativeOnly hy, h.kd, h.outputLimit, h.prevError]
  rfl

theorem outputs_eq_iff {q₁ q₂ : PidState CFloat} {x y : TwinInput CFloat} (h₁ : After p x.fst q₁)
    (h₂ : After p x.snd q₂) (hy : y.Ok) :
    (pidUpdate q₁ y.setpoint₁ y.measurement y.dt).2.key =
      (pidUpdate q₂ y.setpoint₂ y.measurement y.dt).2.key ↔ SameKick p x y := by
  have ho₁ := h₁.key_output hy.fst
  have ho₂ := h₂.key_output hy.snd
  exact (Eq.congr ho₁ ho₂).trans (key_clampSym_eq_iff _ _ _)

/-! ## Runs -/

theorem pidOutputs_eq_iff (xs : List (TwinInput CFloat)) {q₁ q₂ : PidState CFloat}
    {x : TwinInput CFloat} (h₁ : After p x.fst q₁) (h₂ : After p x.snd q₂) (hxs : ∀ y ∈ xs, y.Ok) :
    SameOutputs (pidOutputs q₁ (xs.map TwinInput.fst)) (pidOutputs q₂ (xs.map TwinInput.snd)) ↔
      List.IsChain (SameKick p) (x :: xs) := by
  induction xs generalizing q₁ q₂ x with
  | nil => simp [pidOutputs, SameOutputs]
  | cons y ys ih =>
    have hy := hxs y List.mem_cons_self
    have hys : ∀ z ∈ ys, z.Ok := fun z hz => hxs z (List.mem_cons_of_mem _ hz)
    have hrest := ih (h₁.next hy.fst) (h₂.next hy.snd) hys
    rw [List.isChain_cons_cons, ← hrest, ← outputs_eq_iff h₁ h₂ hy]
    exact List.forall₂_cons

/-- With the proportional and the integral gain at zero and one setpoint at the first step, the outputs
of two runs are equal exactly when at every later step the changes of the two errors give the same
derivative term, as far as the output limit lets the difference through. -/
theorem derivative_ignores_setpoint_iff (hp : DerivativeOnly p) {x : TwinInput CFloat}
    {xs : List (TwinInput CFloat)} (hx : x.setpoint₁ = x.setpoint₂) (hxs : ∀ y ∈ x :: xs, y.Ok) :
    SameOutputs (pidOutputs p ((x :: xs).map TwinInput.fst))
        (pidOutputs p ((x :: xs).map TwinInput.snd)) ↔
      List.IsChain (SameKick p) (x :: xs) := by
  have hfst : x.fst = x.snd := by
    unfold TwinInput.fst TwinInput.snd
    rw [hx]
  have hok := (hxs x List.mem_cons_self).fst
  have h₁ : After p x.fst (pidUpdate p x.setpoint₁ x.measurement x.dt).1 := hp.next hok
  have h₂ : After p x.snd (pidUpdate p x.setpoint₁ x.measurement x.dt).1 := hfst ▸ h₁
  rw [← pidOutputs_eq_iff xs h₁ h₂ fun y hy => hxs y (List.mem_cons_of_mem _ hy), List.map_cons,
    List.map_cons, ← hfst]
  exact List.forall₂_cons.trans (and_iff_right rfl)

/-- Two steps: the stick moves by five degrees in one run and by eight in the other. -/
def stickMoves : List (TwinInput CFloat) :=
  [⟨ofRat 0, ofRat 0, ofRat 1, ofRat (1 / 100)⟩, ⟨ofRat 5, ofRat 8, ofRat 1, ofRat (1 / 100)⟩]

theorem derivativeOnly_pidInit (kd : CFloat) :
    DerivativeOnly (pidInit (ofRat 0) (ofRat 0) kd) :=
  ⟨isZero_ofRat_zero, isZero_ofRat_zero, (isZero_ofRat_zero.bounded 0).isFinite,
    (isZero_ofRat_zero.bounded 0).isFinite⟩

instance (x : PidInput CFloat) : Decidable x.Ok :=
  decidable_of_iff
    ((pidError x.setpoint x.measurement).IsFinite ∧ x.dt.IsFinite ∧ ofRat 0 < x.dt)
    ⟨fun h => ⟨h.1, h.2⟩, fun h => ⟨h.error, h.dt⟩⟩

instance (x : TwinInput CFloat) : Decidable x.Ok :=
  decidable_of_iff (x.fst.Ok ∧ x.snd.Ok) ⟨fun h => ⟨h.1, h.2⟩, fun h => ⟨h.fst, h.snd⟩⟩

/-- Both outputs are at the limit. -/
theorem derivative_ignores_setpoint_iff_saturated :
    SameOutputs
      (pidOutputs (pidInit (ofRat 0) (ofRat 0) (ofRat 1)) (stickMoves.map TwinInput.fst))
      (pidOutputs (pidInit (ofRat 0) (ofRat 0) (ofRat 1)) (stickMoves.map TwinInput.snd)) := by
  have hchain : List.IsChain (SameKick (pidInit (ofRat 0) (ofRat 0) (ofRat 1))) stickMoves := by
    unfold stickMoves
    rw [List.isChain_pair]
    exact .inr (.inl ⟨by decide +kernel, .inl ⟨by decide +kernel, by decide +kernel⟩⟩)
  exact (derivative_ignores_setpoint_iff (derivativeOnly_pidInit _) rfl (by decide +kernel)).2 hchain

/-- The stick moves by one degree at the second step of one run: the output of that step goes from 0 to
the limit, on the same measurements. -/
theorem derivative_kicks :
    ¬ ∀ (p : PidState CFloat) (x : TwinInput CFloat) (xs : List (TwinInput CFloat)),
      DerivativeOnly p → x.setpoint₁ = x.setpoint₂ → (∀ y ∈ x :: xs, y.Ok) →
      SameOutputs (pidOutputs p ((x :: xs).map TwinInput.fst))
        (pidOutputs p ((x :: xs).map TwinInput.snd)) := by
  intro h
  have h1 := h (pidInit (ofRat 0) (ofRat 0) (ofRat 1))
    ⟨ofRat 0, ofRat 0, ofRat 0, ofRat (1 / 100)⟩
    [⟨ofRat 0, ofRat 1, ofRat 0, ofRat (1 / 100)⟩] (derivativeOnly_pidInit _) rfl (by decide +kernel)
  have h2 := (List.forall₂_cons.1 (List.forall₂_cons.1 h1).2).1
  revert h2
  decide +kernel

end EdnaDrone
