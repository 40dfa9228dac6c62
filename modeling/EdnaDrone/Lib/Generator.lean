import Mathlib.Data.List.Basic
import Mathlib.Data.Option.Basic

/-!
# Generators

A generator is a state that is asked for its next value again and again: it gives one, has no more, or
fails. `Yields` says what it gives until it has no more, and `Fails` that it fails before.
-/

namespace Lib

variable {σ α β : Type*}

/-- How a generator answers: `none` if it fails, `some none` if there is no more. -/
abbrev Generator (σ α : Type*) := σ → Option (Option (α × σ))

inductive Yields (g : Generator σ α) : σ → List α → Prop where
  | stop {s : σ} (h : g s = some none) : Yields g s []
  | next {s s' : σ} {a : α} {as : List α} (h : g s = some (some (a, s'))) (hrest : Yields g s' as) :
    Yields g s (a :: as)

/-- The generator fails after so many values. -/
inductive Fails (g : Generator σ α) : ℕ → σ → Prop where
  | here {s : σ} (h : g s = none) : Fails g 0 s
  | next {s s' : σ} {a : α} {n : ℕ} (h : g s = some (some (a, s'))) (hrest : Fails g n s') :
    Fails g (n + 1) s

/-- The generator ends after so many values, in one way or the other. -/
def EndsAfter (g : Generator σ α) (n : ℕ) (s : σ) : Prop :=
  (∃ as, Yields g s as ∧ as.length = n) ∨ Fails g n s

/-- The states that the generator goes through. -/
inductive Reaches (g : Generator σ α) (s : σ) : σ → Prop where
  | refl : Reaches g s s
  | next {t u : σ} {a : α} (h : Reaches g s t) (hnext : g t = some (some (a, u))) : Reaches g s u

/-- The values, computed. -/
def collect (g : Generator σ α) : ℕ → σ → Option (List α)
  | 0, _ => none
  | fuel + 1, s =>
    match g s with
    | none => none
    | some none => some []
    | some (some (a, s')) => (collect g fuel s').map (a :: ·)

/-- The state behind so many values, computed. -/
def skip (g : Generator σ α) : ℕ → σ → Option σ
  | 0, s => some s
  | n + 1, s =>
    match g s with
    | some (some (_, s')) => skip g n s'
    | _ => none

variable {g : Generator σ α} {s : σ} {as : List α}

theorem yields_of_collect {fuel : ℕ} (h : collect g fuel s = some as) : Yields g s as := by
  induction fuel generalizing s as with
  | zero => cases h
  | succ fuel ih =>
    rw [collect] at h
    cases hg : g s with
    | none =>
      rw [hg] at h
      cases h
    | some r =>
      rw [hg] at h
      cases r with
      | none =>
        cases h
        exact .stop hg
      | some p =>
        obtain ⟨a, s'⟩ := p
        obtain ⟨as', hrest, rfl⟩ := Option.map_eq_some_iff.1 h
        exact .next hg (ih hrest)

theorem EndsAfter.stop_or_fail (h : EndsAfter g 0 s) : g s = some none ∨ g s = none := by
  rcases h with ⟨as, hy, hlen⟩ | hfail
  · cases hy with
    | stop hg => exact Or.inl hg
    | next => simp at hlen
  · cases hfail with
    | here hg => exact Or.inr hg

theorem EndsAfter.exists_next {n : ℕ} (h : EndsAfter g (n + 1) s) :
    ∃ a s', g s = some (some (a, s')) ∧ EndsAfter g n s' := by
  rcases h with ⟨as, hy, hlen⟩ | hfail
  · cases hy with
    | stop => simp at hlen
    | next hg hrest => exact ⟨_, _, hg, Or.inl ⟨_, hrest, by simpa using hlen⟩⟩
  · cases hfail with
    | next hg hrest => exact ⟨_, _, hg, Or.inr hrest⟩

/-- A measure that every answer makes smaller ends the generator. -/
theorem yields_or_fails (Inv : σ → Prop) (measure : σ → ℕ)
    (hnext : ∀ s a s', Inv s → g s = some (some (a, s')) → Inv s' ∧ measure s' < measure s)
    (hs : Inv s) :
    (∃ as, Yields g s as ∧ as.length ≤ measure s) ∨ ∃ n, Fails g n s ∧ n ≤ measure s := by
  induction hm : measure s using Nat.strongRecOn generalizing s with
  | ind m ih =>
    cases hg : g s with
    | none => exact Or.inr ⟨0, .here hg, Nat.zero_le _⟩
    | some r =>
      cases r with
      | none => exact Or.inl ⟨[], .stop hg, Nat.zero_le _⟩
      | some p =>
        obtain ⟨a, s'⟩ := p
        obtain ⟨hs', hlt⟩ := hnext s a s' hs hg
        rcases ih (measure s') (by omega) hs' rfl with ⟨as, has, hlen⟩ | ⟨n, hfail, hn⟩
        · refine Or.inl ⟨a :: as, .next hg has, ?_⟩
          rw [List.length_cons]
          omega
        · exact Or.inr ⟨n + 1, .next hg hfail, by omega⟩

/-- A generator gives one list of values. -/
theorem Yields.unique {bs : List α} (h : Yields g s as) (h' : Yields g s bs) : as = bs := by
  induction h generalizing bs with
  | stop hg =>
    cases h' with
    | stop => rfl
    | next hg' =>
      rw [hg] at hg'
      cases hg'
  | next hg _ ih =>
    cases h' with
    | stop hg' =>
      rw [hg] at hg'
      cases hg'
    | next hg' hrest =>
      rw [hg] at hg'
      cases hg'
      rw [ih hrest]

theorem Yields.not_fails {n : ℕ} (h : Yields g s as) : ¬ Fails g n s := by
  intro hfail
  induction h generalizing n with
  | stop hg =>
    cases hfail with
    | here hg' =>
      rw [hg] at hg'
      cases hg'
    | next hg' =>
      rw [hg] at hg'
      cases hg'
  | next hg _ ih =>
    cases hfail with
    | here hg' =>
      rw [hg] at hg'
      cases hg'
    | next hg' hrest =>
      rw [hg] at hg'
      cases hg'
      exact ih hrest

theorem Reaches.invariant {t : σ} (h : Reaches g s t) (Inv : σ → Prop) (hs : Inv s)
    (hstep : ∀ s a s', Inv s → g s = some (some (a, s')) → Inv s') : Inv t := by
  induction h with
  | refl => exact hs
  | next _ hnext ih => exact hstep _ _ _ ih hnext

theorem Reaches.of_next {s' t : σ} {a : α} (hnext : g s = some (some (a, s'))) (h : Reaches g s' t) :
    Reaches g s t := by
  induction h with
  | refl => exact .next .refl hnext
  | next _ hlast ih => exact .next ih hlast

theorem reaches_of_skip {n : ℕ} {t : σ} (h : skip g n s = some t) : Reaches g s t := by
  induction n generalizing s with
  | zero =>
    cases h
    exact .refl
  | succ n ih =>
    unfold skip at h
    split at h
    · rename_i hnext
      exact .of_next hnext (ih h)
    · cases h

/-- A failure happens in a state with the invariant. -/
theorem Fails.exists_state {n : ℕ} (h : Fails g n s) (Inv : σ → Prop) (hs : Inv s)
    (hnext : ∀ s a s', Inv s → g s = some (some (a, s')) → Inv s') : ∃ s', Inv s' ∧ g s' = none := by
  induction h with
  | here hg => exact ⟨_, hs, hg⟩
  | next hg _ ih => exact ih (hnext _ _ _ hs hg)

end Lib
