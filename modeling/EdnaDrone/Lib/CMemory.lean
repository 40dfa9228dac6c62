import EdnaDrone.Lib.Strtof

/-!
# Buffers and pointers

A buffer is the list of the bytes that may be accessed, and a pointer is an index into it. An access
outside the buffer faults, which is `none`; so does a library call on a pointer with no NUL ahead of
it. The lemmas follow a C string while a loop moves the pointer over it.
-/

namespace Lib

/-- `out[i] = c`. -/
def putAt (out : Bytes) (i : ℕ) (c : Byte) : Option Bytes :=
  if i < out.length then some (out.set i c) else none

/-- What a library call reads at `p`: the bytes up to the first NUL. -/
def cstrAt (mem : Bytes) (p : ℕ) : Option Bytes :=
  if 0 ∈ mem.drop p then some (cstr (mem.drop p)) else none

/-- `strstr`: the pointer to the first occurrence, or the null pointer. -/
def strstrAt (mem : Bytes) (p : ℕ) (needle : Bytes) : Option (Option ℕ) :=
  (cstrAt mem p).map fun s => (strstr s needle).map fun r => p + (s.length - r.length)

/-- `strtof`: the value, and the end pointer. Where there is no number they are `0` and `p`. -/
def strtofAt (mem : Bytes) (p : ℕ) : Option (NumText × ℕ) :=
  (cstrAt mem p).map fun s =>
    match strtof s with
    | none => (.num false 0, p)
    | some (v, r) => (v, p + (s.length - r.length))

/-- `while (skip(*p)) p++`. -/
def skipWhileAt (skip : Byte → Bool) (mem : Bytes) (p : ℕ) : Option ℕ :=
  match h : mem[p]? with
  | none => none
  | some c => if skip c then skipWhileAt skip mem (p + 1) else some p
termination_by mem.length - p
decreasing_by
  have := (List.getElem?_eq_some_iff.1 h).1
  omega

/-- The C string `s` lies at `p`, with its NUL. -/
def IsCStr (mem : Bytes) (p : ℕ) (s : Bytes) : Prop := 0 ∉ s ∧ s ++ [0] <+: mem.drop p

variable {mem s r : Bytes} {p : ℕ}

theorem cstr_append_nul {t : Bytes} (h : 0 ∉ s) : cstr (s ++ 0 :: t) = s := by
  refine takeWhile_append_cons ?_ rfl
  intro c hc
  have hne : c ≠ 0 := fun h0 => h (h0 ▸ hc)
  simpa using hne

/-- A received text with a NUL behind it holds its C string. -/
theorem isCStr_terminated (data : Bytes) : IsCStr (data ++ [0]) 0 (cstr data) := by
  constructor
  · intro h0
    have := List.mem_takeWhile_imp h0
    simp at this
  · unfold cstr
    rw [List.drop_zero]
    induction data with
    | nil => exact List.prefix_rfl
    | cons c t ih =>
      by_cases hc : c = 0
      · rw [List.takeWhile_cons_of_neg (by simp [hc]), hc, List.nil_append, List.cons_append,
          List.cons_prefix_cons]
        exact ⟨rfl, List.nil_prefix⟩
      · rw [List.takeWhile_cons_of_pos (by simpa using hc), List.cons_append, List.cons_append,
          List.cons_prefix_cons]
        exact ⟨rfl, ih⟩

theorem IsCStr.cstrAt_eq (h : IsCStr mem p s) : cstrAt mem p = some s := by
  obtain ⟨h0, t, ht⟩ := h
  rw [List.append_assoc, List.singleton_append] at ht
  unfold cstrAt
  rw [← ht, if_pos (by simp), cstr_append_nul h0]

theorem IsCStr.getElem?_nil (h : IsCStr mem p []) : mem[p]? = some 0 := by
  obtain ⟨-, t, ht⟩ := h
  have h0 : (mem.drop p)[0]? = some 0 := by rw [← ht]; rfl
  rwa [List.getElem?_drop, Nat.add_zero] at h0

theorem IsCStr.getElem?_cons {c : Byte} (h : IsCStr mem p (c :: s)) : mem[p]? = some c := by
  obtain ⟨-, t, ht⟩ := h
  have h0 : (mem.drop p)[0]? = some c := by rw [← ht]; rfl
  rwa [List.getElem?_drop, Nat.add_zero] at h0

/-- A pointer that moves inside the string, or onto its NUL, points to the rest of it. -/
theorem IsCStr.advance (h : IsCStr mem p (r ++ s)) : IsCStr mem (p + r.length) s := by
  obtain ⟨h0, t, ht⟩ := h
  constructor
  · intro hs
    exact h0 (List.mem_append_right _ hs)
  · refine ⟨t, ?_⟩
    rw [← List.drop_drop, ← ht, List.append_assoc r, List.append_assoc r, List.drop_left]

theorem IsCStr.tail {c : Byte} (h : IsCStr mem p (c :: s)) : IsCStr mem (p + 1) s :=
  IsCStr.advance (r := [c]) h

theorem skipWhileAt_of_getElem? {skip : Byte → Bool} {c : Byte} (h : mem[p]? = some c) :
    skipWhileAt skip mem p = if skip c then skipWhileAt skip mem (p + 1) else some p := by
  rw [skipWhileAt]
  split
  · rename_i h'
    rw [h] at h'
    cases h'
  · rename_i d h'
    rw [h] at h'
    cases h'
    rfl

/-- The scan stops at the latest at the NUL, so it stays inside the buffer. -/
theorem IsCStr.skipWhileAt_eq (skip : Byte → Bool) (hskip : skip 0 = false) (h : IsCStr mem p s) :
    ∃ q, skipWhileAt skip mem p = some q ∧ IsCStr mem q (s.dropWhile skip) := by
  induction s generalizing p with
  | nil =>
    refine ⟨p, ?_, h⟩
    rw [skipWhileAt_of_getElem? h.getElem?_nil, hskip]
    rfl
  | cons c s ih =>
    by_cases hc : skip c = true
    · obtain ⟨q, hq, hs⟩ := ih h.tail
      refine ⟨q, ?_, ?_⟩
      · rw [skipWhileAt_of_getElem? h.getElem?_cons, if_pos hc, hq]
      · rwa [List.dropWhile_cons_of_pos hc]
    · refine ⟨p, ?_, ?_⟩
      · rw [skipWhileAt_of_getElem? h.getElem?_cons, if_neg hc]
      · rwa [List.dropWhile_cons_of_neg hc]

/-- What `strstr` finds is the end of the text, from the occurrence on. -/
theorem strstr_eq_some {hay needle : Bytes} (h : strstr hay needle = some r) :
    needle <+: r ∧ r <:+ hay := by
  induction hay with
  | nil =>
    unfold strstr at h
    split at h
    · rename_i hp
      cases h
      exact ⟨List.isPrefixOf_iff_prefix.1 hp, List.suffix_rfl⟩
    · cases h
  | cons c t ih =>
    by_cases hp : needle <+: c :: t
    · rw [strstr_of_isPrefix hp] at h
      cases h
      exact ⟨hp, List.suffix_rfl⟩
    · rw [strstr_cons_of_not_isPrefix hp] at h
      obtain ⟨h1, h2⟩ := ih h
      exact ⟨h1, h2.trans (List.suffix_cons c t)⟩

theorem IsCStr.suffix (h : IsCStr mem p s) (hr : r <:+ s) :
    IsCStr mem (p + (s.length - r.length)) r := by
  obtain ⟨u, rfl⟩ := hr
  have hlen : (u ++ r).length - r.length = u.length := by
    rw [List.length_append]
    omega
  rw [hlen]
  exact h.advance

/-- `strstr` on a C string finds what the list function finds, at a pointer behind which the match
lies. -/
theorem IsCStr.strstrAt_eq (h : IsCStr mem p s) (needle : Bytes) :
    (strstr s needle = none ∧ strstrAt mem p needle = some none) ∨
      ∃ r q, strstr s needle = some r ∧ strstrAt mem p needle = some (some q) ∧
        IsCStr mem (q + needle.length) (r.drop needle.length) := by
  unfold strstrAt
  rw [h.cstrAt_eq]
  cases hs : strstr s needle with
  | none => exact Or.inl ⟨rfl, by rw [Option.map_some, hs]; rfl⟩
  | some r =>
    right
    obtain ⟨⟨t, rfl⟩, hr⟩ := strstr_eq_some hs
    refine ⟨_, _, rfl, by rw [Option.map_some, hs]; rfl, ?_⟩
    rw [List.drop_left]
    exact (h.suffix hr).advance

/-- `strtof` on a C string: nothing is read exactly when the end pointer does not move. -/
theorem IsCStr.strtofAt_eq (h : IsCStr mem p s) :
    (strtof s = none ∧ strtofAt mem p = some (.num false 0, p)) ∨
      ∃ v rest q, strtof s = some (v, rest) ∧ strtofAt mem p = some (v, q) ∧ q ≠ p := by
  unfold strtofAt
  rw [h.cstrAt_eq, Option.map_some]
  cases hs : strtof s with
  | none => exact Or.inl ⟨rfl, rfl⟩
  | some x =>
    right
    obtain ⟨v, rest⟩ := x
    have hlt := length_strtof_lt hs
    refine ⟨v, rest, _, rfl, rfl, ?_⟩
    omega

/-- The NUL written at `i` ends the string in the buffer. -/
theorem putAt_nul {out : Bytes} {i : ℕ} (hi : i < out.length) (h0 : 0 ∉ out.take i) :
    ∃ out', putAt out i 0 = some out' ∧ out'.length = out.length ∧ cstr out' = out.take i := by
  refine ⟨out.set i 0, if_pos hi, List.length_set, ?_⟩
  rw [List.set_eq_take_append_cons_drop, if_pos hi, cstr_append_nul h0]

end Lib
