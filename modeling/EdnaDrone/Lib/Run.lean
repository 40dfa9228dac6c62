import Mathlib.Data.List.Basic
import Mathlib.Tactic.Common

/-!
# Runs of a deterministic labelled transition system

A system is a total step function `step : σ → ε → σ` over states `σ` and events `ε`; an event that
is not enabled leaves the state as it is. A run is the list of its events, and `runFrom` folds
`step` over it. `AllSteps P` says that every step of the run is taken in a state and with an event
related by `P`; it is how a run is restricted to steps that meet a condition.
-/

namespace Lib

variable {σ ε : Type*}

def runFrom (step : σ → ε → σ) (s : σ) (es : List ε) : σ := es.foldl step s

/-- Every step of the run `es` from `s` satisfies `P` (of the state before it and its event). -/
def AllSteps (step : σ → ε → σ) (P : σ → ε → Prop) : σ → List ε → Prop
  | _, [] => True
  | s, e :: es => P s e ∧ AllSteps step P (step s e) es

variable {step : σ → ε → σ} {P Q : σ → ε → Prop} {s : σ}

@[simp] theorem runFrom_nil : runFrom step s [] = s := rfl

@[simp] theorem runFrom_cons (e : ε) (es : List ε) :
    runFrom step s (e :: es) = runFrom step (step s e) es := rfl

@[simp] theorem runFrom_append (es fs : List ε) :
    runFrom step s (es ++ fs) = runFrom step (runFrom step s es) fs := by
  simp [runFrom]

@[simp] theorem allSteps_nil : AllSteps step P s [] := trivial

@[simp] theorem allSteps_cons {e : ε} {es : List ε} :
    AllSteps step P s (e :: es) ↔ P s e ∧ AllSteps step P (step s e) es := Iff.rfl

@[simp] theorem allSteps_append {es fs : List ε} :
    AllSteps step P s (es ++ fs) ↔
      AllSteps step P s es ∧ AllSteps step P (runFrom step s es) fs := by
  induction es generalizing s with
  | nil => simp
  | cons e es ih => simp [ih, and_assoc]

/-- A step that is itself a run of finer steps: a run is the run of all the finer steps. -/
theorem runFrom_flatMap {ε' : Type*} {step' : σ → ε' → σ} {f : ε → List ε'}
    (h : ∀ s e, step s e = runFrom step' s (f e)) (s : σ) (es : List ε) :
    runFrom step s es = runFrom step' s (es.flatMap f) := by
  induction es generalizing s with
  | nil => rfl
  | cons e es ih => rw [runFrom_cons, List.flatMap_cons, runFrom_append, h, ih]

/-! ## What a run shows -/

/-- The values that the steps of a run show, each step at most one. -/
def observed {β : Type*} (step : σ → ε → σ) (obs : σ → ε → Option β) : σ → List ε → List β
  | _, [] => []
  | s, e :: es => (obs s e).toList ++ observed step obs (step s e) es

section Observed

variable {β : Type*} {obs : σ → ε → Option β}

@[simp] theorem observed_nil : observed step obs s [] = [] := rfl

@[simp] theorem observed_cons (e : ε) (es : List ε) :
    observed step obs s (e :: es) = (obs s e).toList ++ observed step obs (step s e) es := rfl

@[simp] theorem observed_append (es fs : List ε) :
    observed step obs s (es ++ fs) =
      observed step obs s es ++ observed step obs (runFrom step s es) fs := by
  induction es generalizing s with
  | nil => rfl
  | cons e es ih =>
    rw [List.cons_append, observed_cons, observed_cons, ih, List.append_assoc, runFrom_cons]

/-- An invariant that relates the state to what the run has shown so far. -/
theorem observed_invariant (Inv : List β → σ → Prop) (bs : List β) (hs : Inv bs s)
    (hstep : ∀ bs s e, Inv bs s → Inv (bs ++ (obs s e).toList) (step s e)) (es : List ε) :
    Inv (bs ++ observed step obs s es) (runFrom step s es) := by
  induction es generalizing s bs with
  | nil =>
    rw [observed_nil, List.append_nil]
    exact hs
  | cons e es ih =>
    rw [observed_cons, ← List.append_assoc]
    exact ih _ (hstep bs s e hs)

/-- Two runs in lockstep: related states show the same and stay related under the same events. -/
theorem observed_eq_of_lockstep (R : σ → σ → Prop) {t : σ} (h : R s t)
    (hobs : ∀ s t e, R s t → obs s e = obs t e) (hstep : ∀ s t e, R s t → R (step s e) (step t e))
    (es : List ε) : observed step obs s es = observed step obs t es := by
  induction es generalizing s t with
  | nil => rfl
  | cons e es ih => rw [observed_cons, observed_cons, hobs s t e h, ih (hstep s t e h)]

end Observed

/-! ## Rules -/

/-- A condition on the events alone holds of every step when it holds of every event. -/
theorem allSteps_of_forall {R : ε → Prop} {es : List ε} (h : ∀ e ∈ es, R e) :
    AllSteps step (fun _ e => R e) s es := by
  induction es generalizing s with
  | nil => trivial
  | cons e es ih =>
    exact ⟨h e List.mem_cons_self, ih fun x hx => h x (List.mem_cons_of_mem _ hx)⟩

/-- The invariant rule: what one step meeting `P` preserves, a run of such steps preserves. -/
theorem AllSteps.invariant (Inv : σ → Prop) {es : List ε} (h : AllSteps step P s es)
    (hs : Inv s) (hstep : ∀ s e, P s e → Inv s → Inv (step s e)) : Inv (runFrom step s es) := by
  induction es generalizing s with
  | nil => exact hs
  | cons e es ih => exact ih h.2 (hstep s e h.1 hs)

theorem runFrom_invariant (Inv : σ → Prop) (hs : Inv s)
    (hstep : ∀ s e, Inv s → Inv (step s e)) (es : List ε) : Inv (runFrom step s es) := by
  induction es generalizing s with
  | nil => exact hs
  | cons e es ih => exact ih (hstep s e hs)

/-- A bound that grows by one with each event of a kind and with no other. -/
theorem runFrom_invariant_count (Inv : ℕ → σ → Prop) (p : ε → Bool) {R : ε → Prop} {n : ℕ}
    {es : List ε} (hs : Inv n s) (hes : ∀ e ∈ es, R e)
    (hstep : ∀ n s e, R e → Inv n s → Inv (if p e then n + 1 else n) (step s e)) :
    Inv (n + es.countP p) (runFrom step s es) := by
  induction es generalizing s n with
  | nil => exact hs
  | cons e es ih =>
    have hs' := hstep n s e (hes e List.mem_cons_self) hs
    have hrest := ih hs' fun x hx => hes x (List.mem_cons_of_mem _ hx)
    rw [List.countP_cons, Nat.add_comm (es.countP p), ← Nat.add_assoc]
    split at hrest
    · rename_i hp
      rwa [if_pos hp]
    · rename_i hp
      rwa [if_neg hp]

/-- A condition on the steps of a run, read off at each of its splits. -/
theorem allSteps_iff_forall_split {es : List ε} :
    AllSteps step P s es ↔ ∀ pre e post, es = pre ++ e :: post → P (runFrom step s pre) e := by
  constructor
  · rintro h pre e post rfl
    exact (allSteps_append.1 h).2.1
  · intro h
    induction es generalizing s with
    | nil => trivial
    | cons e es ih =>
      refine ⟨h [] e es rfl, ih ?_⟩
      rintro pre e' post rfl
      exact h (e :: pre) e' post rfl

theorem AllSteps.take {es : List ε} (h : AllSteps step P s es) (n : ℕ) :
    AllSteps step P s (es.take n) := by
  rw [← List.take_append_drop n es, allSteps_append] at h
  exact h.1

/-- Events that leave the state as it is can be left out of a run. -/
theorem AllSteps.runFrom_filter {keep : ε → Bool} {es : List ε} (h : AllSteps step P s es)
    (hdrop : ∀ s e, P s e → keep e = false → step s e = s) :
    runFrom step s (es.filter keep) = runFrom step s es := by
  induction es generalizing s with
  | nil => rfl
  | cons e es ih =>
    cases hk : keep e with
    | true => rw [List.filter_cons_of_pos hk, runFrom_cons, runFrom_cons, ih h.2]
    | false =>
      have hs := hdrop s e h.1 hk
      rw [List.filter_cons_of_neg (by simp [hk]), runFrom_cons, hs]
      rw [allSteps_cons, hs] at h
      exact ih h.2

/-- Two conditions on steps that agree wherever an invariant holds, one of which keeps it, restrict a
run in the same way. `R` is what the run assumes of its events. -/
theorem allSteps_iff_of_invariant (Inv : σ → Prop) {R : ε → Prop} {es : List ε} (hs : Inv s)
    (hes : ∀ e ∈ es, R e) (hiff : ∀ s e, R e → Inv s → (P s e ↔ Q s e))
    (hstep : ∀ s e, R e → Inv s → P s e → Inv (step s e)) :
    AllSteps step P s es ↔ AllSteps step Q s es := by
  induction es generalizing s with
  | nil => exact Iff.rfl
  | cons e es ih =>
    have he := hes e List.mem_cons_self
    have hes' : ∀ x ∈ es, R x := fun x hx => hes x (List.mem_cons_of_mem _ hx)
    rw [allSteps_cons, allSteps_cons, ← hiff s e he hs]
    constructor
    · rintro ⟨hp, hrest⟩
      exact ⟨hp, (ih (hstep s e he hs hp) hes').1 hrest⟩
    · rintro ⟨hp, hrest⟩
      exact ⟨hp, (ih (hstep s e he hs hp) hes').2 hrest⟩

/-- A property of states holds along a whole run exactly when its steps meet `P`, provided it holds
at the start and a step from a state that has it keeps it exactly when that step meets `P`. -/
theorem allSteps_iff_along (Inv : σ → Prop) (hs : Inv s)
    (hstep : ∀ s e, Inv s → (Inv (step s e) ↔ P s e)) (es : List ε) :
    AllSteps step P s es ↔ ∀ n, Inv (runFrom step s (es.take n)) := by
  induction es generalizing s with
  | nil => simpa using hs
  | cons e es ih =>
    constructor
    · rintro ⟨he, hes⟩ n
      have hs' := (hstep s e hs).2 he
      cases n with
      | zero => exact hs
      | succ n => exact (ih hs').1 hes n
    · intro h
      have hs' : Inv (step s e) := by simpa using h 1
      exact ⟨(hstep s e hs).1 hs', (ih hs').2 fun n => h (n + 1)⟩

end Lib
