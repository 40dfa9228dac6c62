import Mathlib.Tactic.Common

/-!
# Loops with fuel

`loop body fuel s` runs a body that either asks for another round or leaves the loop with a result. It
has none only if the fuel runs out; a measure that every round makes smaller bounds the fuel that is
needed, and more fuel never changes the result.
-/

namespace Lib

variable {σ β : Type*}

/-- How a round ends. -/
inductive Round (σ β : Type*) where
  | again (s : σ)
  | done (b : β)

def loop (body : σ → Round σ β) : ℕ → σ → Option β
  | 0, _ => none
  | fuel + 1, s =>
    match body s with
    | .again s' => loop body fuel s'
    | .done b => some b

variable {body : σ → Round σ β} {s s' : σ} {b : β} {fuel : ℕ}

theorem loop_again (h : body s = .again s') : loop body (fuel + 1) s = loop body fuel s' := by
  rw [loop, h]

theorem loop_done (h : body s = .done b) : loop body (fuel + 1) s = some b := by
  rw [loop, h]

theorem loop_mono {fuel' : ℕ} (h : loop body fuel s = some b) (hle : fuel ≤ fuel') :
    loop body fuel' s = some b := by
  induction fuel generalizing s fuel' with
  | zero => cases h
  | succ fuel ih =>
    obtain ⟨fuel', rfl⟩ : ∃ m, fuel' = m + 1 := ⟨fuel' - 1, by omega⟩
    cases hs : body s with
    | again s' =>
      rw [loop_again hs] at h ⊢
      exact ih h (by omega)
    | done b' =>
      rw [loop_done hs] at h ⊢
      exact h

/-- A measure that every round from a state with the invariant makes smaller. -/
theorem exists_loop_eq_some (Inv : σ → Prop) (measure : σ → ℕ)
    (hround : ∀ s s', Inv s → body s = .again s' → Inv s' ∧ measure s' < measure s) (hs : Inv s)
    (hfuel : measure s < fuel) : ∃ b, loop body fuel s = some b := by
  induction fuel generalizing s with
  | zero => omega
  | succ fuel ih =>
    cases h : body s with
    | again s' =>
      obtain ⟨hs', hlt⟩ := hround s s' hs h
      rw [loop_again h]
      exact ih hs' (by omega)
    | done b => exact ⟨b, loop_done h⟩

/-- What the rounds keep and the last one turns into the postcondition. -/
theorem loop_post (Inv : σ → Prop) (Post : β → Prop) (h : loop body fuel s = some b) (hs : Inv s)
    (hagain : ∀ s s', Inv s → body s = .again s' → Inv s')
    (hdone : ∀ s b, Inv s → body s = .done b → Post b) : Post b := by
  induction fuel generalizing s with
  | zero => cases h
  | succ fuel ih =>
    cases hb : body s with
    | again s' =>
      rw [loop_again hb] at h
      exact ih h (hagain s s' hs hb)
    | done b' =>
      rw [loop_done hb] at h
      cases h
      exact hdone s b hs hb

end Lib
