import Mathlib.Data.UInt
import Mathlib.Data.List.Chain
import Mathlib.Tactic.NormNum

/-!
# Readings of a clock kept in 32 bits

A clock counts up without bound and its readings are kept in 32 bits. The wrapping difference of two
kept readings is the time between them modulo `2 ^ 32`, so it is the time itself whenever that is
shorter than a turn of the counter, whether the counter has wrapped in between or not.
-/

namespace Lib

theorem toNat_ofNat_sub_ofNat {t u : ℕ} (h : u ≤ t) :
    (UInt32.ofNat t - UInt32.ofNat u).toNat = (t - u) % 2 ^ 32 := by
  rw [UInt32.toNat_sub, UInt32.toNat_ofNat', UInt32.toNat_ofNat']
  have ht := Nat.div_add_mod t (2 ^ 32)
  have hu := Nat.div_add_mod u (2 ^ 32)
  have ht' := Nat.mod_lt t (show 0 < 2 ^ 32 by norm_num)
  have hu' := Nat.mod_lt u (show 0 < 2 ^ 32 by norm_num)
  omega

theorem toNat_ofNat_sub_ofNat_of_lt {t u : ℕ} (h : u ≤ t) (hlt : t - u < 2 ^ 32) :
    (UInt32.ofNat t - UInt32.ofNat u).toNat = t - u := by
  rw [toNat_ofNat_sub_ofNat h, Nat.mod_eq_of_lt hlt]

/-- A reading that does not go back is reached again after a turn of the counter at the latest: some
later reading is kept as `v`. -/
theorem exists_ofNat_eq (t : ℕ) (v : UInt32) : ∃ u, t ≤ u ∧ UInt32.ofNat u = v := by
  refine ⟨t + (v - UInt32.ofNat t).toNat, by omega, ?_⟩
  apply UInt32.toNat_inj.1
  rw [UInt32.toNat_ofNat', UInt32.toNat_sub, UInt32.toNat_ofNat']
  have ht := Nat.div_add_mod t (2 ^ 32)
  have ht' := Nat.mod_lt t (show 0 < 2 ^ 32 by norm_num)
  have hv := v.toNat_lt
  omega

/-- Of two different kept readings, one is the time `k` before some reading and the other one is
longer before it. -/
theorem exists_sub_eq_and_lt {v w k : UInt32} (h : v ≠ w) (hk : 2 * k.toNat < 2 ^ 32) :
    ∃ now : UInt32, (now - v = k ∧ k.toNat < (now - w).toNat) ∨
      (now - w = k ∧ k.toNat < (now - v).toNat) := by
  have hv := v.toNat_lt
  have hw := w.toNat_lt
  have hne : v.toNat ≠ w.toNat := fun heq => h (UInt32.toNat_inj.1 heq)
  have hcancel : ∀ x : UInt32, x + k - x = k := by
    intro x
    rw [UInt32.add_comm, UInt32.add_sub_cancel]
  by_cases hgap : (2 ^ 32 + v.toNat - w.toNat) % 2 ^ 32 < 2 ^ 32 - k.toNat
  · refine ⟨v + k, .inl ⟨hcancel v, ?_⟩⟩
    rw [UInt32.toNat_sub, UInt32.toNat_add]
    omega
  · refine ⟨w + k, .inr ⟨hcancel w, ?_⟩⟩
    rw [UInt32.toNat_sub, UInt32.toNat_add]
    omega

end Lib
