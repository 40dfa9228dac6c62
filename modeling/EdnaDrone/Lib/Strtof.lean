import EdnaDrone.Lib.CString
import Mathlib.Data.Rat.Defs

/-!
# `strtof`

The conversion of C99: optional white space and sign, then `inf`, `infinity` or `nan` in any case,
a hexadecimal number, or a decimal number, each as far as the text goes on. The function returns
what the text denotes, before it is rounded to a float, and the text after it; `none` when no number
starts the text.
-/

namespace Lib

/-- What a numeric text denotes: a signed magnitude, an infinity, or not a number. -/
inductive NumText where
  | nan
  | inf (neg : Bool)
  | num (neg : Bool) (mag : ℚ)
  deriving DecidableEq

def isSpace (c : Byte) : Bool := c == 32 || (9 ≤ c && c ≤ 13)
def isDigit (c : Byte) : Bool := 48 ≤ c && c ≤ 57
def isUpper (c : Byte) : Bool := 65 ≤ c && c ≤ 90
def toLower (c : Byte) : Byte := if isUpper c then c + 32 else c
def isHexDigit (c : Byte) : Bool := isDigit c || (97 ≤ toLower c && toLower c ≤ 102)

/-- The bytes allowed between the parentheses of `nan(…)`. -/
def isNanChar (c : Byte) : Bool := isDigit c || (97 ≤ toLower c && toLower c ≤ 122) || c == 95

def digitVal (c : Byte) : ℕ :=
  if isDigit c then c.toNat - 48 else (toLower c).toNat - 87

/-- The number written by the digits `ds` in base `b`. -/
def digitsVal (b : ℕ) (ds : Bytes) : ℕ := ds.foldl (fun n d => b * n + digitVal d) 0

/-- The text after the lower-case word `w`, when the text begins with it in any case. -/
def stripWord : Bytes → Bytes → Option Bytes
  | [], p => some p
  | w :: ws, c :: p => if toLower c = w then stripWord ws p else none
  | _ :: _, [] => none

/-- The optional sign: whether it is a minus, and the text after it. -/
def scanSign : Bytes → Bool × Bytes
  | 45 :: p => (true, p)
  | 43 :: p => (false, p)
  | p => (false, p)

/-- The digits after an optional point, and the text after them. -/
def scanFrac (isD : Byte → Bool) : Bytes → Bytes × Bytes
  | 46 :: p => (p.takeWhile isD, p.dropWhile isD)
  | p => ([], p)

/-- The optional exponent after the marker `m` (lower case). It is taken only with digits. -/
def scanExp (m : Byte) : Bytes → ℤ × Bytes
  | [] => (0, [])
  | c :: p =>
    if toLower c = m then
      let s := scanSign p
      let ds := s.2.takeWhile isDigit
      if ds = [] then (0, c :: p)
      else
        (if s.1 then -(digitsVal 10 ds : ℤ) else digitsVal 10 ds, s.2.dropWhile isDigit)
    else (0, c :: p)

/-- A number in base `b`: digits with an optional point, and an exponent of the base `eb`, of which
one digit is worth `eb ^ k`. -/
def scanNumber (isD : Byte → Bool) (b eb k : ℕ) (m : Byte) (p : Bytes) : Option (ℚ × Bytes) :=
  let ip := p.takeWhile isD
  let fp := scanFrac isD (p.dropWhile isD)
  if ip = [] ∧ fp.1 = [] then none
  else
    let ex := scanExp m fp.2
    some (digitsVal b (ip ++ fp.1) * (eb : ℚ) ^ (ex.1 - k * fp.1.length), ex.2)

/-- The text after `nan`, past a parenthesised tag. -/
def nanTail : Bytes → Bytes
  | 40 :: p =>
    match p.dropWhile isNanChar with
    | 41 :: r => r
    | _ => 40 :: p
  | p => p

/-- The number after the sign. -/
def scanUnsigned (neg : Bool) (p : Bytes) : Option (NumText × Bytes) :=
  match stripWord (ascii "infinity") p with
  | some r => some (.inf neg, r)
  | none =>
  match stripWord (ascii "inf") p with
  | some r => some (.inf neg, r)
  | none =>
  match stripWord (ascii "nan") p with
  | some r => some (.nan, nanTail r)
  | none =>
  match (stripWord (ascii "0x") p).bind (scanNumber isHexDigit 16 2 4 112) with
  | some (q, r) => some (.num neg q, r)
  | none => (scanNumber isDigit 10 10 1 101 p).map fun x => (.num neg x.1, x.2)

def strtof (p : Bytes) : Option (NumText × Bytes) :=
  let s := scanSign (p.dropWhile isSpace)
  scanUnsigned s.1 s.2

example : strtof (ascii " -12.5e1,") = some (.num true 125, ascii ",") := by decide +kernel
example : strtof (ascii "0x1.8p1z") = some (.num false 3, ascii "z") := by decide +kernel
example : strtof (ascii "nan(7);") = some (.nan, ascii ";") := by decide +kernel
example : strtof (ascii "1e+;") = some (.num false 1, ascii "e+;") := by decide +kernel
example : strtof (ascii "null") = none := by decide +kernel

/-! ## The text that is left -/

theorem length_stripWord {w p r : Bytes} (h : stripWord w p = some r) :
    w.length + r.length = p.length := by
  induction w generalizing p with
  | nil =>
    rw [stripWord, Option.some.injEq] at h
    rw [h, List.length_nil, Nat.zero_add]
  | cons c w ih =>
    cases p with
    | nil => cases h
    | cons d p =>
      rw [stripWord] at h
      split at h
      · have := ih h
        simp only [List.length_cons]
        omega
      · cases h

theorem length_scanSign_le (p : Bytes) : (scanSign p).2.length ≤ p.length := by
  unfold scanSign
  split
  · exact Nat.le_succ _
  · exact Nat.le_succ _
  · exact le_rfl

theorem length_nanTail_le (p : Bytes) : (nanTail p).length ≤ p.length := by
  unfold nanTail
  split
  · rename_i p
    split
    · rename_i r hr
      have := (List.dropWhile_sublist isNanChar (l := p)).length_le
      rw [hr] at this
      simp only [List.length_cons] at this ⊢
      omega
    · exact le_rfl
  · exact le_rfl

theorem length_scanExp_le (m : Byte) (p : Bytes) : (scanExp m p).2.length ≤ p.length := by
  unfold scanExp
  split
  · exact le_rfl
  · rename_i c p
    split
    · dsimp only
      split
      · exact le_rfl
      · have h1 := (List.dropWhile_sublist isDigit (l := (scanSign p).2)).length_le
        have h2 := length_scanSign_le p
        simp only [List.length_cons]
        omega
    · exact le_rfl

theorem length_takeWhile_add_dropWhile (f : Byte → Bool) (p : Bytes) :
    (p.takeWhile f).length + (p.dropWhile f).length = p.length := by
  rw [← List.length_append, List.takeWhile_append_dropWhile]

theorem length_scanFrac (isD : Byte → Bool) (p : Bytes) :
    (scanFrac isD p).1.length + (scanFrac isD p).2.length ≤ p.length := by
  unfold scanFrac
  split
  · rename_i p
    have := length_takeWhile_add_dropWhile isD p
    simp only [List.length_cons]
    omega
  · simp

theorem length_scanNumber_lt {isD : Byte → Bool} {b eb k : ℕ} {m : Byte} {p r : Bytes} {q : ℚ}
    (h : scanNumber isD b eb k m p = some (q, r)) : r.length < p.length := by
  unfold scanNumber at h
  dsimp only at h
  split at h
  · cases h
  · rename_i hd
    rw [Option.some.injEq, Prod.mk.injEq] at h
    have h1 := length_takeWhile_add_dropWhile isD p
    have h2 := length_scanFrac isD (p.dropWhile isD)
    have h3 := length_scanExp_le m (scanFrac isD (p.dropWhile isD)).2
    rw [h.2] at h3
    rw [← List.length_eq_zero_iff, ← List.length_eq_zero_iff] at hd
    omega

/-- A word that is not empty leaves less than there was. -/
theorem length_lt_of_stripWord {word : String} {p r : Bytes} (hword : 0 < word.toList.length)
    (h : stripWord (ascii word) p = some r) : r.length < p.length := by
  have hlen := length_stripWord h
  rw [length_ascii] at hlen
  omega

theorem length_scanUnsigned_lt {neg : Bool} {p r : Bytes} {v : NumText}
    (h : scanUnsigned neg p = some (v, r)) : r.length < p.length := by
  unfold scanUnsigned at h
  split at h
  · rename_i t ht
    cases h
    exact length_lt_of_stripWord (by simp) ht
  split at h
  · rename_i t ht
    cases h
    exact length_lt_of_stripWord (by simp) ht
  split at h
  · rename_i t ht
    cases h
    exact (length_nanTail_le t).trans_lt (length_lt_of_stripWord (by simp) ht)
  split at h
  · rename_i q t ht
    cases h
    obtain ⟨u, hu, hn⟩ := Option.bind_eq_some_iff.1 ht
    exact (length_scanNumber_lt hn).trans (length_lt_of_stripWord (by simp) hu)
  · obtain ⟨x, hx, he⟩ := Option.map_eq_some_iff.1 h
    cases he
    exact length_scanNumber_lt hx

/-- A conversion consumes at least one byte, so its end pointer differs from the start. -/
theorem length_strtof_lt {p r : Bytes} {v : NumText} (h : strtof p = some (v, r)) :
    r.length < p.length := by
  have h1 := length_scanUnsigned_lt h
  have h2 := length_scanSign_le (p.dropWhile isSpace)
  have h3 := (List.dropWhile_sublist isSpace (l := p)).length_le
  omega

end Lib
