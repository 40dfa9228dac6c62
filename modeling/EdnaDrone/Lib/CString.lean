import Mathlib.Data.List.TakeWhile
import Mathlib.Tactic

/-!
# C strings as byte lists

`strstr` returns the rest of the haystack from the first occurrence of the needle on. The lemmas
below find that occurrence by walking over the text: a prefix without the needle's first byte is
skipped at once, and a position where the needle does not match is skipped on its own.
-/

namespace Lib

abbrev Byte : Type := UInt8
abbrev Bytes : Type := List Byte

def ascii (s : String) : Bytes := s.toList.map fun c => c.toNat.toUInt8

theorem length_ascii (s : String) : (ascii s).length = s.toList.length := List.length_map _

/-- The C string that starts a buffer: what precedes its first NUL. -/
def cstr (buf : Bytes) : Bytes := buf.takeWhile (· != 0)

/-- `strstr`: the haystack from the first occurrence of the needle on. -/
def strstr : Bytes → Bytes → Option Bytes
  | hay, needle =>
    if needle.isPrefixOf hay then some hay
    else match hay with
      | [] => none
      | _ :: t => strstr t needle

/-- For the bytes of a literal, where the check evaluates. -/
theorem forall_mem_of_all {p : Byte → Prop} [DecidablePred p] {buf : Bytes}
    (h : buf.all (fun c => decide (p c)) = true) : ∀ c ∈ buf, p c := by
  intro c hc
  exact of_decide_eq_true (List.all_eq_true.mp h c hc)

theorem cstr_of_no_nul {buf : Bytes} (h : ∀ c ∈ buf, c ≠ 0) : cstr buf = buf := by
  unfold cstr
  rw [List.takeWhile_eq_self_iff]
  intro c hc
  simpa using h c hc

theorem strstr_of_isPrefix {hay needle : Bytes} (h : needle <+: hay) :
    strstr hay needle = some hay := by
  unfold strstr
  rw [if_pos (List.isPrefixOf_iff_prefix.2 h)]

theorem strstr_cons_of_not_isPrefix {c : Byte} {t needle : Bytes} (h : ¬ needle <+: c :: t) :
    strstr (c :: t) needle = strstr t needle := by
  rw [strstr]
  rw [if_neg (fun hp => h (List.isPrefixOf_iff_prefix.1 hp))]

theorem strstr_nil {c : Byte} {n : Bytes} : strstr [] (c :: n) = none := by
  simp [strstr, List.isPrefixOf]

theorem strstr_cons_of_ne {c d : Byte} {t n : Bytes} (h : d ≠ c) :
    strstr (d :: t) (c :: n) = strstr t (c :: n) := by
  apply strstr_cons_of_not_isPrefix
  intro hp
  exact h (List.cons_prefix_cons.1 hp).1.symm

/-- A prefix without the first byte of the needle contains no occurrence. -/
theorem strstr_append_of_not_mem {c : Byte} {pre rest n : Bytes} (h : c ∉ pre) :
    strstr (pre ++ rest) (c :: n) = strstr rest (c :: n) := by
  induction pre with
  | nil => rfl
  | cons d pre ih =>
    rw [List.mem_cons, not_or] at h
    rw [List.cons_append, strstr_cons_of_ne (Ne.symm h.1), ih h.2]

/-- The needle is not found in a text without its first byte. -/
theorem strstr_eq_none_of_not_mem {c : Byte} {hay n : Bytes} (h : c ∉ hay) :
    strstr hay (c :: n) = none := by
  have := @strstr_append_of_not_mem c hay [] n h
  rwa [List.append_nil, strstr_nil] at this

/-- What is not found in a text is not found in a prefix of it. -/
theorem strstr_eq_none_of_isPrefix {buf hay needle : Bytes} (h : strstr hay needle = none)
    (hp : buf <+: hay) : strstr buf needle = none := by
  induction buf generalizing hay with
  | nil =>
    unfold strstr
    split
    · rename_i hn
      have hnil : needle = [] := List.prefix_nil.1 (List.isPrefixOf_iff_prefix.1 hn)
      rw [hnil, strstr_of_isPrefix List.nil_prefix] at h
      cases h
    · rfl
  | cons c t ih =>
    obtain ⟨u, rfl⟩ := hp
    by_cases hn : needle <+: c :: t
    · rw [strstr_of_isPrefix (hn.trans (List.prefix_append _ _))] at h
      cases h
    · rw [strstr_cons_of_not_isPrefix hn]
      by_cases hn' : needle <+: c :: (t ++ u)
      · rw [List.cons_append, strstr_of_isPrefix hn'] at h
        cases h
      · rw [List.cons_append, strstr_cons_of_not_isPrefix hn'] at h
        exact ih h (List.prefix_append _ _)

/-- Two texts that are delimited by a byte neither contains agree when one continued by the
delimiter is a prefix of the other continued by it. -/
theorem eq_of_delimited {q : Byte} {a b r s : Bytes} (ha : q ∉ a) (hb : q ∉ b)
    (h : a ++ q :: r <+: b ++ q :: s) : a = b ∧ r <+: s := by
  induction a generalizing b with
  | nil =>
    cases b with
    | nil =>
      rw [List.nil_append, List.nil_append, List.cons_prefix_cons] at h
      exact ⟨rfl, h.2⟩
    | cons d b =>
      rw [List.nil_append, List.cons_append, List.cons_prefix_cons] at h
      exact absurd (h.1 ▸ List.mem_cons_self) hb
  | cons c a ih =>
    cases b with
    | nil =>
      rw [List.nil_append, List.cons_append, List.cons_prefix_cons] at h
      exact absurd (h.1 ▸ List.mem_cons_self) ha
    | cons d b =>
      rw [List.cons_append, List.cons_append, List.cons_prefix_cons] at h
      rw [List.mem_cons, not_or] at ha hb
      obtain ⟨hab, hrs⟩ := ih ha.2 hb.2 h.2
      exact ⟨by rw [h.1, hab], hrs⟩

theorem takeWhile_append_cons {p : Byte → Bool} {a r : Bytes} {c : Byte}
    (ha : ∀ x ∈ a, p x = true) (hc : p c = false) : (a ++ c :: r).takeWhile p = a := by
  rw [List.takeWhile_append_of_pos ha, List.takeWhile_cons_of_neg (by simp [hc]), List.append_nil]

theorem dropWhile_append_cons {p : Byte → Bool} {a r : Bytes} {c : Byte}
    (ha : ∀ x ∈ a, p x = true) (hc : p c = false) : (a ++ c :: r).dropWhile p = c :: r := by
  rw [List.dropWhile_append_of_pos ha, List.dropWhile_cons_of_neg (by simp [hc])]

/-- What a scan skips, a wider scan skips as well. -/
theorem dropWhile_dropWhile_of_imp {p q : Byte → Bool} (h : ∀ c, q c = true → p c = true)
    (text : Bytes) : (text.dropWhile q).dropWhile p = text.dropWhile p := by
  induction text with
  | nil => rfl
  | cons c text ih =>
    by_cases hc : q c = true
    · rw [List.dropWhile_cons_of_pos hc, List.dropWhile_cons_of_pos (h c hc), ih]
    · rw [List.dropWhile_cons_of_neg hc]

end Lib
