import EdnaDrone.Lib.Decimal

/-!
# Reading flat JSON objects

`ReadsFlat` says of a reader what a JSON library promises for the objects of the other module: it finds
the members in their order, the strings as they are and the numbers exactly. `readFlat` is such a
reader. It knows flat objects without escapes only.
-/

namespace Lib

/-- What a reader makes of a value: a number by its sign and magnitude, and whether it is written
without a fraction and an exponent. -/
inductive JsonDatum where
  | str (s : Bytes)
  | num (neg : Bool) (mag : ℚ) (isInt : Bool)
  /-- An array, an object, a truth value or `null`. -/
  | other
  deriving DecidableEq

/-- The value of a number. -/
def JsonDatum.value : JsonDatum → Option ℚ
  | .num neg mag _ => some (Flt.signed neg mag)
  | _ => none

abbrev JsonDict : Type := List (Bytes × JsonDatum)

def JsonScalar.datum : JsonScalar → JsonDatum
  | .str s => .str s.bytes
  | .num n => .num n.neg n.mag (decide (n.frac = [] ∧ n.exp.isNone))

def JsonMember.datum (m : JsonMember) : Bytes × JsonDatum := (m.name.bytes, m.value.datum)

def ReadsFlat (read : Bytes → Option JsonDict) : Prop :=
  ∀ sp ms, (ms.map fun m : JsonMember => m.name.bytes).Nodup →
    read (jsonObject sp ms) = some (ms.map JsonMember.datum)

/-! ## A reader -/

def isJsonSpace (c : Byte) : Bool := c == 32 || c == 9 || c == 10 || c == 13

def skipSpace (p : Bytes) : Bytes := p.dropWhile isJsonSpace

def isPlain (c : Byte) : Bool := c != 34 && c != 92

def readString : Bytes → Option (Bytes × Bytes)
  | 34 :: p =>
    match p.dropWhile isPlain with
    | 34 :: r => some (p.takeWhile isPlain, r)
    | _ => none
  | _ => none

def readNumber (p : Bytes) : Option (JsonDatum × Bytes) :=
  match strtof p with
  | some (.num neg mag, r) =>
    some (.num neg mag ((p.take (p.length - r.length)).all fun c => isDigit c || c == 45), r)
  | _ => none

def readValue (p : Bytes) : Option (JsonDatum × Bytes) :=
  match readString p with
  | some (s, r) => some (.str s, r)
  | none => readNumber p

def readMember (p : Bytes) : Option ((Bytes × JsonDatum) × Bytes) :=
  (readString p).bind fun x =>
    match skipSpace x.2 with
    | 58 :: q => (readValue (skipSpace q)).map fun y => ((x.1, y.1), skipSpace y.2)
    | _ => none

/-- The members after the first one, for which `fuel` bytes are left. -/
def readTail : ℕ → Bytes → Option JsonDict
  | _, 125 :: p => if skipSpace p = [] then some [] else none
  | fuel + 1, 44 :: p =>
    (readMember (skipSpace p)).bind fun x => (readTail fuel x.2).map fun ms => x.1 :: ms
  | _, _ => none

def readMembers (p : Bytes) : Option JsonDict :=
  (readMember p).bind fun x => (readTail x.2.length x.2).map fun ms => x.1 :: ms

def readFlat (p : Bytes) : Option JsonDict :=
  match skipSpace p with
  | 123 :: p =>
    match skipSpace p with
    | 125 :: p => if skipSpace p = [] then some [] else none
    | p => readMembers p
  | _ => none

example : readFlat (ascii "\x7b \"a\" : -1.50, \"b\":\"c\" \x7d\n") =
    some [(ascii "a", .num true (3 / 2) false), (ascii "b", .str (ascii "c"))] := by decide +kernel

/-! ## It reads every flat object -/

theorem skipSpace_cons {c : Byte} {r : Bytes} (h : isJsonSpace c = false) :
    skipSpace (c :: r) = c :: r := List.dropWhile_cons_of_neg (by simp [h])

theorem skipSpace_replicate (k : ℕ) {c : Byte} {r : Bytes} (h : isJsonSpace c = false) :
    skipSpace (List.replicate k 32 ++ c :: r) = c :: r := by
  refine (takeWhile_of_stop (fun x hx => ?_) fun d hd => ?_).2
  · rw [List.eq_of_mem_replicate hx]
    rfl
  · rwa [← Option.some.inj hd]

theorem skipSpace_of_closes {r : Bytes} (h : Closes r) : skipSpace r = r := by
  obtain ⟨c, t, rfl, hc⟩ := h
  apply skipSpace_cons
  rcases hc with rfl | rfl <;> rfl

theorem readString_text (s : JsonString) (r : Bytes) :
    readString (34 :: (s.bytes ++ 34 :: r)) = some (s.bytes, r) := by
  have hplain : ∀ c ∈ s.bytes, isPlain c = true := fun c hc => by
    simp [isPlain, (s.plain c hc).1, (s.plain c hc).2.1]
  have hstop : isPlain 34 = false := rfl
  rw [readString, takeWhile_append_cons hplain hstop, dropWhile_append_cons hplain hstop]
  rfl

/-- A number begins with a digit or a minus. -/
theorem JsonNumber.exists_cons (n : JsonNumber) :
    ∃ c t, n.text = c :: t ∧ c ≠ 34 ∧ isJsonSpace c = false := by
  have hne : n.text ≠ [] := by
    simp [JsonNumber.text, n.int_ne]
  obtain ⟨c, t, hc⟩ := List.exists_cons_of_ne_nil hne
  have hmem : c ∈ n.text := by
    rw [hc]
    exact List.mem_cons_self
  refine ⟨c, t, hc, fun h => n.not_mem_quote (h ▸ hmem), ?_⟩
  have hspace : ∀ d, isJsonSpace d = true → d ∈ [32, 9, 10, 13] := by
    intro d hd
    simpa [isJsonSpace, or_assoc] using hd
  by_contra hc'
  have hin := hspace c (by simpa using hc')
  rcases JsonNumber.mem_text hmem with hd | hd
  · simp only [List.mem_cons, List.not_mem_nil, or_false] at hin
    rcases hin with rfl | rfl | rfl | rfl <;> exact absurd hd (by decide)
  · simp only [List.mem_cons, List.not_mem_nil, or_false] at hin
    rcases hin with rfl | rfl | rfl | rfl <;> exact absurd hd (by decide)

/-- The literal has digits and a minus only when it has neither a fraction nor an exponent. -/
theorem JsonNumber.all_text (n : JsonNumber) :
    (n.text.all fun c => isDigit c || c == 45) = decide (n.frac = [] ∧ n.exp.isNone) := by
  have hint : (n.int.all fun c => isDigit c || c == 45) = true := by
    rw [List.all_eq_true]
    intro c hc
    simp [n.int_isDigit c hc]
  have hsign : ((if n.neg then [45] else [] : Bytes).all fun c => isDigit c || c == 45) = true := by
    cases n.neg <;> rfl
  rw [JsonNumber.text, List.all_append, List.all_append, hsign, hint, Bool.true_and, Bool.true_and,
    JsonNumber.restText, List.all_append]
  have hfrac : ((JsonNumber.fracText n.frac).all fun c => isDigit c || c == 45) =
      decide (n.frac = []) := by
    unfold JsonNumber.fracText
    by_cases hf : n.frac = []
    · simp [hf]
    · rw [if_neg hf, List.all_cons, decide_eq_false hf]
      rfl
  have hexp : ((JsonNumber.expText n.exp).all fun c => isDigit c || c == 45) = n.exp.isNone := by
    cases n.exp with
    | none => rfl
    | some e =>
      show (e.text.all fun c => isDigit c || c == 45) = false
      rw [JsonExp.text, List.all_cons]
      cases e.upper <;> rfl
  rw [hfrac, hexp]
  by_cases hf : n.frac = []
  · cases n.exp <;> simp [hf]
  · simp [hf]

theorem readNumber_text (n : JsonNumber) {r : Bytes} (hr : EndsNumber r) :
    readNumber (n.text ++ r) = some ((JsonScalar.num n).datum, r) := by
  have htake : (n.text ++ r).take ((n.text ++ r).length - r.length) = n.text := by
    rw [List.length_append, Nat.add_sub_cancel, List.take_left]
  unfold readNumber
  rw [strtof_text hr]
  simp only [htake, n.all_text]
  rfl

theorem readValue_text (v : JsonScalar) {r : Bytes} (hr : Closes r) :
    readValue (v.text ++ r) = some (v.datum, r) := by
  cases v with
  | str s =>
    have htext : (JsonScalar.str s).text ++ r = 34 :: (s.bytes ++ 34 :: r) := by
      simp [JsonScalar.text]
    rw [readValue, htext, readString_text]
    rfl
  | num n =>
    obtain ⟨c, t, hc, hquote, -⟩ := n.exists_cons
    have hno : readString (n.text ++ r) = none := by
      rw [hc, List.cons_append]
      unfold readString
      split
      · rename_i heq
        exact absurd (List.cons.inj heq).1 hquote
      · rfl
    show readValue (n.text ++ r) = _
    rw [readValue, hno]
    exact readNumber_text n hr.endsNumber

variable {sp : JsonSpacing}

theorem skipSpace_valueText (m : JsonMember) (r : Bytes) :
    skipSpace (m.valueText sp ++ r) = m.value.text ++ r := by
  have hhead : ∃ c t, m.value.text = c :: t ∧ isJsonSpace c = false := by
    cases m.value with
    | str s => exact ⟨34, _, rfl, rfl⟩
    | num n =>
      obtain ⟨c, t, hc, -, hs⟩ := n.exists_cons
      exact ⟨c, t, hc, hs⟩
  obtain ⟨c, t, hc, hs⟩ := hhead
  rw [JsonMember.valueText, List.append_assoc, hc, List.cons_append]
  exact skipSpace_replicate _ hs

theorem readMember_text (m : JsonMember) {r : Bytes} (hr : Closes r) :
    readMember (m.text sp ++ r) = some (m.datum, r) := by
  have htext : m.text sp ++ r = 34 :: (m.name.bytes ++ 34 :: 58 :: (m.valueText sp ++ r)) := by
    simp [JsonMember.text]
  have hcolon : skipSpace (58 :: (m.valueText sp ++ r)) = 58 :: (m.valueText sp ++ r) :=
    skipSpace_cons rfl
  rw [readMember, htext, readString_text]
  simp only [Option.bind_some, hcolon, skipSpace_valueText, readValue_text m.value hr,
    Option.map_some, skipSpace_of_closes hr]
  rfl

theorem skipSpace_member (k : ℕ) (m : JsonMember) (r : Bytes) :
    skipSpace (List.replicate k 32 ++ (m.text sp ++ r)) = m.text sp ++ r :=
  skipSpace_replicate k rfl

theorem closes_tail (sp : JsonSpacing) (ms : List JsonMember) : Closes (jsonTail sp ms) := by
  have h := closes_jsonTail sp ms []
  rwa [List.append_nil] at h

theorem length_le_jsonTail (sp : JsonSpacing) (ms : List JsonMember) :
    ms.length ≤ (jsonTail sp ms).length := by
  induction ms with
  | nil => exact Nat.zero_le _
  | cons m ms ih =>
    simp only [jsonTail, List.length_cons, List.length_append]
    omega

theorem readTail_jsonTail {fuel : ℕ} {ms : List JsonMember} (h : ms.length ≤ fuel) :
    readTail fuel (jsonTail sp ms) = some (ms.map JsonMember.datum) := by
  induction ms generalizing fuel with
  | nil =>
    show readTail fuel [125] = _
    rw [readTail]
    rfl
  | cons m ms ih =>
    obtain ⟨k, rfl⟩ := Nat.exists_eq_add_of_lt (Nat.lt_of_lt_of_le (Nat.succ_pos _) h)
    have hfuel : ms.length ≤ 0 + k := by
      rw [List.length_cons] at h
      omega
    rw [jsonTail, readTail, skipSpace_member, readMember_text m (closes_tail sp ms)]
    simp only [Option.bind_some, ih hfuel, Option.map_some, List.map_cons]

theorem readFlat_reads : ReadsFlat readFlat := by
  intro sp ms _
  cases ms with
  | nil => rfl
  | cons m ms =>
    have hbrace : skipSpace (123 :: (m.text sp ++ jsonTail sp ms)) =
        123 :: (m.text sp ++ jsonTail sp ms) := skipSpace_cons rfl
    have hmember : skipSpace (m.text sp ++ jsonTail sp ms) = m.text sp ++ jsonTail sp ms :=
      skipSpace_member 0 m _
    have hopen : readFlat (jsonObject sp (m :: ms)) = readMembers (m.text sp ++ jsonTail sp ms) := by
      rw [jsonObject, readFlat, hbrace]
      simp only [hmember]
      rfl
    rw [hopen, readMembers, readMember_text m (closes_tail sp ms)]
    simp only [Option.bind_some, readTail_jsonTail (length_le_jsonTail sp ms), Option.map_some,
      List.map_cons]

end Lib
