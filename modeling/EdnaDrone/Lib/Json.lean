import EdnaDrone.Lib.Strtof

/-!
# JSON texts of flat objects

Objects whose members are numbers and plain strings, with the spaces that a printer puts after colons
and commas as parameters. A decoder that looks for `"name":` in such a text finds the member of that
name: the pattern begins with a quote, and every other quote of the text is followed by something
else. `strtof` on the text of a number stops where the number ends.
-/

namespace Lib

/-! ## Numbers -/

/-- The exponent of a number: its letter, its optional sign (`true` is a minus) and its digits. -/
structure JsonExp where
  upper : Bool
  sign : Option Bool
  digits : Bytes
  digits_ne : digits ≠ []
  isDigit : ∀ c ∈ digits, isDigit c = true

/-- A number of the JSON grammar. An empty fraction stands for none. -/
structure JsonNumber where
  neg : Bool
  int : Bytes
  frac : Bytes
  exp : Option JsonExp
  int_ne : int ≠ []
  int_isDigit : ∀ c ∈ int, isDigit c = true
  frac_isDigit : ∀ c ∈ frac, isDigit c = true
  /-- No leading zeros. -/
  int_zero : int.head? = some 48 → int = [48]

def JsonExp.text (e : JsonExp) : Bytes :=
  (if e.upper then 69 else 101) ::
    match e.sign with
    | none => e.digits
    | some true => 45 :: e.digits
    | some false => 43 :: e.digits

def JsonExp.val (e : JsonExp) : ℤ :=
  if e.sign = some true then -(digitsVal 10 e.digits : ℤ) else digitsVal 10 e.digits

namespace JsonNumber

def fracText (frac : Bytes) : Bytes := if frac = [] then [] else 46 :: frac

def expText : Option JsonExp → Bytes
  | none => []
  | some e => e.text

def expVal : Option JsonExp → ℤ
  | none => 0
  | some e => e.val

/-- The text after the integer part. -/
def restText (n : JsonNumber) : Bytes := fracText n.frac ++ expText n.exp

def text (n : JsonNumber) : Bytes := (if n.neg then [45] else []) ++ (n.int ++ n.restText)

def mag (n : JsonNumber) : ℚ :=
  digitsVal 10 (n.int ++ n.frac) * (10 : ℚ) ^ (expVal n.exp - n.frac.length)

end JsonNumber

/-! ## `strtof` on numbers -/

/-- What can follow a number without being read as part of it. -/
def EndsNumber (r : Bytes) : Prop :=
  ∀ c ∈ r.head?, isDigit c = false ∧ c ≠ 46 ∧ toLower c ≠ 101 ∧ toLower c ≠ 120

theorem isDigit_iff {c : Byte} : isDigit c = true ↔ 48 ≤ c.toNat ∧ c.toNat ≤ 57 := by
  simp [isDigit, UInt8.le_iff_toNat_le]

theorem toLower_of_isDigit {c : Byte} (h : isDigit c = true) : toLower c = c := by
  rw [isDigit_iff] at h
  unfold toLower isUpper
  rw [if_neg]
  simp only [UInt8.le_iff_toNat_le, Bool.and_eq_true, decide_eq_true_eq, not_and]
  intro h1
  have h2 : (65 : Byte).toNat = 65 := rfl
  omega

theorem ne_of_isDigit {c d : Byte} (h : isDigit c = true) (hd : isDigit d = false) : c ≠ d := by
  rintro rfl
  rw [h] at hd
  cases hd

theorem takeWhile_of_stop {p : Byte → Bool} {a r : Bytes} (ha : ∀ x ∈ a, p x = true)
    (hr : ∀ c ∈ r.head?, p c = false) : (a ++ r).takeWhile p = a ∧ (a ++ r).dropWhile p = r := by
  cases r with
  | nil =>
    rw [List.append_nil]
    exact ⟨List.takeWhile_eq_self_iff.2 ha, List.dropWhile_eq_nil_iff.2 ha⟩
  | cons c r =>
    have hc : p c = false := hr c rfl
    exact ⟨takeWhile_append_cons ha hc, dropWhile_append_cons ha hc⟩

theorem scanExp_expText (e : Option JsonExp) {r : Bytes} (hr : EndsNumber r) :
    scanExp 101 (JsonNumber.expText e ++ r) = (JsonNumber.expVal e, r) := by
  cases e with
  | none =>
    cases r with
    | nil => rfl
    | cons c r =>
      have h : toLower c ≠ 101 := (hr c rfl).2.2.1
      simp only [JsonNumber.expText, JsonNumber.expVal, List.nil_append, scanExp, if_neg h]
  | some e =>
    obtain ⟨h1, h2⟩ := takeWhile_of_stop (r := r) e.isDigit fun c hc => (hr c hc).1
    have hmark : toLower (if e.upper then 69 else 101) = 101 := by
      cases e.upper <;> rfl
    -- the sign is scanned off; without one the first digit is not taken for it
    have hsign : scanSign ((match e.sign with
        | none => e.digits
        | some true => 45 :: e.digits
        | some false => 43 :: e.digits) ++ r) = (decide (e.sign = some true), e.digits ++ r) := by
      cases hs : e.sign with
      | some b => cases b <;> rfl
      | none =>
        obtain ⟨d, ds, hds⟩ := List.exists_cons_of_ne_nil e.digits_ne
        have hd : isDigit d = true := e.isDigit d (hds ▸ List.mem_cons_self)
        have h45 : d ≠ 45 := ne_of_isDigit hd rfl
        have h43 : d ≠ 43 := ne_of_isDigit hd rfl
        simp only [hds, List.cons_append]
        unfold scanSign
        split
        · rename_i heq
          exact absurd (List.cons.inj heq).1 h45
        · rename_i heq
          exact absurd (List.cons.inj heq).1 h43
        · rfl
    simp only [JsonNumber.expText, JsonExp.text, List.cons_append, scanExp, if_pos hmark, hsign, h1,
      h2, if_neg e.digits_ne, JsonNumber.expVal, JsonExp.val, decide_eq_true_eq]

/-- The text after the integer part begins with a point, a letter of an exponent, or what follows
the number. -/
theorem head_restText {n : JsonNumber} {r : Bytes} (hr : EndsNumber r) :
    ∀ c ∈ (n.restText ++ r).head?, isDigit c = false ∧ toLower c ≠ 120 := by
  unfold JsonNumber.restText JsonNumber.fracText
  by_cases hf : n.frac = []
  · rw [if_pos hf, List.nil_append]
    cases he : n.exp with
    | none => exact fun c hc => ⟨(hr c hc).1, (hr c hc).2.2.2⟩
    | some e =>
      intro c hc
      obtain rfl : (if e.upper then 69 else 101) = c := Option.some.inj hc
      cases e.upper <;> decide
  · rw [if_neg hf]
    intro c hc
    obtain rfl : 46 = c := Option.some.inj hc
    decide

theorem scanFrac_restText {n : JsonNumber} {r : Bytes} (hr : EndsNumber r) :
    scanFrac isDigit (n.restText ++ r) = (n.frac, JsonNumber.expText n.exp ++ r) := by
  have hexp : ∀ c ∈ (JsonNumber.expText n.exp ++ r).head?, isDigit c = false ∧ c ≠ 46 := by
    cases he : n.exp with
    | none => exact fun c hc => ⟨(hr c hc).1, (hr c hc).2.1⟩
    | some e =>
      intro c hc
      obtain rfl : (if e.upper then 69 else 101) = c := Option.some.inj hc
      cases e.upper <;> decide
  unfold JsonNumber.restText JsonNumber.fracText
  by_cases hf : n.frac = []
  · rw [if_pos hf, List.nil_append, hf]
    unfold scanFrac
    split
    · rename_i p heq
      exact absurd rfl (hexp 46 (by rw [heq]; rfl)).2
    · rfl
  · obtain ⟨h1, h2⟩ := takeWhile_of_stop n.frac_isDigit fun c hc => (hexp c hc).1
    rw [if_neg hf, List.append_assoc, List.cons_append, scanFrac, h1, h2]

theorem scanNumber_text {n : JsonNumber} {r : Bytes} (hr : EndsNumber r) :
    scanNumber isDigit 10 10 1 101 (n.int ++ (n.restText ++ r)) = some (n.mag, r) := by
  obtain ⟨h1, h2⟩ := takeWhile_of_stop n.int_isDigit
    fun c hc => (head_restText (n := n) hr c hc).1
  have hne : ¬ (n.int = [] ∧ n.frac = []) := fun h => n.int_ne h.1
  simp only [scanNumber, h1, h2, scanFrac_restText hr, scanExp_expText n.exp hr, if_neg hne,
    JsonNumber.mag, Nat.cast_one, one_mul]
  rfl

/-- The integer part is not taken for `inf`, `nan` or `0x`. -/
theorem scanUnsigned_text {n : JsonNumber} {r : Bytes} (neg : Bool) (hr : EndsNumber r) :
    scanUnsigned neg (n.int ++ (n.restText ++ r)) = some (.num neg n.mag, r) := by
  obtain ⟨d, ds, hds⟩ := List.exists_cons_of_ne_nil n.int_ne
  have hd : isDigit d = true := n.int_isDigit d (hds ▸ List.mem_cons_self)
  have hword : ∀ (w : Byte) (ws : Bytes), isDigit w = false →
      stripWord (w :: ws) (n.int ++ (n.restText ++ r)) = none := by
    intro w ws hw
    rw [hds, List.cons_append, stripWord, toLower_of_isDigit hd, if_neg (ne_of_isDigit hd hw)]
  have hhex : stripWord (ascii "0x") (n.int ++ (n.restText ++ r)) = none := by
    show stripWord [48, 120] _ = none
    by_cases h48 : d = 48
    · have hint : n.int = [48] := n.int_zero (by rw [hds, h48]; rfl)
      rw [hint, List.singleton_append, stripWord, if_pos (by decide)]
      cases hrest : n.restText ++ r with
      | nil => rfl
      | cons c t =>
        rw [stripWord, if_neg (head_restText (n := n) hr c (by rw [hrest]; rfl)).2]
    · rw [hds, List.cons_append, stripWord, toLower_of_isDigit hd, if_neg h48]
  have hinf : stripWord (ascii "infinity") (n.int ++ (n.restText ++ r)) = none := hword _ _ (by decide)
  have hinf' : stripWord (ascii "inf") (n.int ++ (n.restText ++ r)) = none := hword _ _ (by decide)
  have hnan : stripWord (ascii "nan") (n.int ++ (n.restText ++ r)) = none := hword _ _ (by decide)
  simp only [scanUnsigned, hinf, hinf', hnan, hhex, Option.bind_none, scanNumber_text hr,
    Option.map_some]

theorem strtof_text {n : JsonNumber} {r : Bytes} (hr : EndsNumber r) :
    strtof (n.text ++ r) = some (.num n.neg n.mag, r) := by
  obtain ⟨d, ds, hds⟩ := List.exists_cons_of_ne_nil n.int_ne
  have hd : isDigit d = true := n.int_isDigit d (hds ▸ List.mem_cons_self)
  have hspace : isSpace d = false := by
    rw [isDigit_iff] at hd
    have h32 : d ≠ 32 := by
      rintro rfl
      exact absurd hd.1 (by decide)
    have h13 : ¬ d ≤ 13 := by
      rw [UInt8.le_iff_toNat_le]
      have h : (13 : Byte).toNat = 13 := rfl
      omega
    simp [isSpace, h32, h13]
  unfold JsonNumber.text strtof
  cases n.neg with
  | true =>
    rw [if_pos rfl, List.append_assoc, List.singleton_append, List.append_assoc,
      List.dropWhile_cons_of_neg (by decide)]
    exact scanUnsigned_text true hr
  | false =>
    rw [if_neg (by decide), List.nil_append, List.append_assoc, hds, List.cons_append,
      List.dropWhile_cons_of_neg (by simp [hspace])]
    have hsign : scanSign (d :: (ds ++ (n.restText ++ r))) = (false, d :: (ds ++ (n.restText ++ r))) := by
      unfold scanSign
      split
      · rename_i heq
        exact absurd (List.cons.inj heq).1 (ne_of_isDigit hd rfl)
      · rename_i heq
        exact absurd (List.cons.inj heq).1 (ne_of_isDigit hd rfl)
      · rfl
    rw [hsign]
    show scanUnsigned false (d :: (ds ++ (n.restText ++ r))) = _
    rw [← List.cons_append, ← hds]
    exact scanUnsigned_text false hr

/-! ## Objects -/

/-- The bytes of a string that is printed as it is: no quote, no backslash, no control character. -/
structure JsonString where
  bytes : Bytes
  plain : ∀ c ∈ bytes, c ≠ 34 ∧ c ≠ 92 ∧ 32 ≤ c

inductive JsonScalar where
  | str (s : JsonString)
  | num (n : JsonNumber)

structure JsonMember where
  name : JsonString
  value : JsonScalar

/-- How many spaces a printer puts after colons and after commas. -/
structure JsonSpacing where
  afterColon : ℕ
  afterComma : ℕ

def JsonScalar.text : JsonScalar → Bytes
  | .str s => 34 :: (s.bytes ++ [34])
  | .num n => n.text

/-- What follows the colon of a member. -/
def JsonMember.valueText (sp : JsonSpacing) (m : JsonMember) : Bytes :=
  List.replicate sp.afterColon 32 ++ m.value.text

def JsonMember.text (sp : JsonSpacing) (m : JsonMember) : Bytes :=
  34 :: (m.name.bytes ++ 34 :: 58 :: m.valueText sp)

/-- The rest of an object after a member: the other members and the closing brace. -/
def jsonTail (sp : JsonSpacing) : List JsonMember → Bytes
  | [] => [125]
  | m :: ms => 44 :: (List.replicate sp.afterComma 32 ++ (m.text sp ++ jsonTail sp ms))

def jsonObject (sp : JsonSpacing) : List JsonMember → Bytes
  | [] => [123, 125]
  | m :: ms => 123 :: (m.text sp ++ jsonTail sp ms)

/-- What a text that follows a value of an object begins with. -/
def Closes (r : Bytes) : Prop := ∃ c t, r = c :: t ∧ (c = 44 ∨ c = 125)

theorem Closes.endsNumber {r : Bytes} (h : Closes r) : EndsNumber r := by
  obtain ⟨c, t, rfl, hc⟩ := h
  intro d hd
  obtain rfl : c = d := Option.some.inj hd
  rcases hc with rfl | rfl <;> decide

theorem closes_jsonTail (sp : JsonSpacing) (ms : List JsonMember) (r : Bytes) :
    Closes (jsonTail sp ms ++ r) := by
  cases ms with
  | nil => exact ⟨125, r, rfl, Or.inr rfl⟩
  | cons m ms => exact ⟨44, _, rfl, Or.inl rfl⟩

theorem JsonString.not_mem_quote (s : JsonString) : (34 : Byte) ∉ s.bytes :=
  fun h => (s.plain 34 h).1 rfl

theorem not_mem_replicate_space {c : Byte} (hc : c ≠ 32) (k : ℕ) :
    c ∉ List.replicate k (32 : Byte) := fun h => hc (List.eq_of_mem_replicate h)

theorem JsonNumber.mem_text {n : JsonNumber} {c : Byte} (h : c ∈ n.text) :
    isDigit c = true ∨ c ∈ [45, 46, 69, 101, 43] := by
  simp only [JsonNumber.text, JsonNumber.restText, List.mem_append] at h
  rcases h with h | h | h | h
  · right
    split_ifs at h
    · simp at h
      simp [h]
    · cases h
  · exact Or.inl (n.int_isDigit c h)
  · unfold JsonNumber.fracText at h
    split_ifs at h
    · cases h
    · rcases List.mem_cons.1 h with rfl | h
      · right; simp
      · exact Or.inl (n.frac_isDigit c h)
  · cases he : n.exp with
    | none =>
      rw [he] at h
      cases h
    | some e =>
      rw [he] at h
      rcases List.mem_cons.1 h with rfl | h
      · right
        cases e.upper <;> simp
      · cases hs : e.sign with
        | none =>
          rw [hs] at h
          exact Or.inl (e.isDigit c h)
        | some b =>
          rw [hs] at h
          cases b
          all_goals
            rcases List.mem_cons.1 h with rfl | h
            · right; simp
            · exact Or.inl (e.isDigit c h)

theorem JsonNumber.head_text (n : JsonNumber) (r : Bytes) :
    ∀ c ∈ (n.text ++ r).head?, c ≠ 32 ∧ c ≠ 9 := by
  have hne : n.text ≠ [] := by
    simp [JsonNumber.text, n.int_ne]
  obtain ⟨d, t, hd⟩ := List.exists_cons_of_ne_nil hne
  rw [hd]
  intro c hc
  obtain rfl : d = c := Option.some.inj hc
  constructor
  · rintro rfl
    rcases JsonNumber.mem_text (hd ▸ List.mem_cons_self) with h | h
    · exact absurd h (by decide)
    · exact absurd h (by decide)
  · rintro rfl
    rcases JsonNumber.mem_text (hd ▸ List.mem_cons_self) with h | h
    · exact absurd h (by decide)
    · exact absurd h (by decide)

theorem JsonNumber.not_mem_quote (n : JsonNumber) : (34 : Byte) ∉ n.text := by
  intro h
  rcases JsonNumber.mem_text h with h | h
  · exact absurd h (by decide)
  · exact absurd h (by decide)

/-! ## Looking for a member -/

/-- The search text for the member `key`, with `tail` after its colon. -/
def memberNeedle (key tail : Bytes) : Bytes := 34 :: (key ++ 34 :: 58 :: tail)

/-- A key that cannot be mistaken for what follows a string. -/
structure SearchKey (key : Bytes) : Prop where
  not_mem_quote : (34 : Byte) ∉ key
  head : ∃ c ks, key = c :: ks ∧ c ≠ 58 ∧ c ≠ 44 ∧ c ≠ 125

variable {key tail : Bytes} {sp : JsonSpacing} {m : JsonMember}

/-- The closing quote of a string does not start an occurrence. -/
theorem strstr_closing_quote (hk : SearchKey key) {c : Byte} {t : Bytes}
    (hc : c = 58 ∨ c = 44 ∨ c = 125) :
    strstr (34 :: c :: t) (memberNeedle key tail) = strstr (c :: t) (memberNeedle key tail) := by
  apply strstr_cons_of_not_isPrefix
  obtain ⟨d, ks, rfl, h1, h2, h3⟩ := hk.head
  intro hp
  have hd : d = c := (List.cons_prefix_cons.1 (List.cons_prefix_cons.1 hp).2).1
  rcases hc with rfl | rfl | rfl
  · exact h1 hd
  · exact h2 hd
  · exact h3 hd

theorem strstr_value (hk : SearchKey key) {r : Bytes} (hr : Closes r) :
    strstr (m.valueText sp ++ r) (memberNeedle key tail) = strstr r (memberNeedle key tail) := by
  unfold JsonMember.valueText
  rw [List.append_assoc]
  refine (strstr_append_of_not_mem (not_mem_replicate_space (by decide) _)).trans ?_
  cases m.value with
  | num n => exact strstr_append_of_not_mem n.not_mem_quote
  | str s =>
    obtain ⟨c, t, rfl, hc⟩ := hr
    have htext : JsonScalar.text (.str s) ++ c :: t = 34 :: (s.bytes ++ 34 :: c :: t) := by
      simp [JsonScalar.text]
    rw [htext]
    have hno : ¬ memberNeedle key tail <+: 34 :: (s.bytes ++ 34 :: c :: t) := by
      intro hp
      obtain ⟨-, h2⟩ := eq_of_delimited hk.not_mem_quote s.not_mem_quote (List.cons_prefix_cons.1 hp).2
      have h58 : 58 = c := (List.cons_prefix_cons.1 h2).1
      rcases hc with rfl | rfl
      · exact absurd h58 (by decide)
      · exact absurd h58 (by decide)
    refine (strstr_cons_of_not_isPrefix hno).trans ?_
    refine (strstr_append_of_not_mem s.not_mem_quote).trans (strstr_closing_quote hk ?_)
    rcases hc with rfl | rfl
    · exact Or.inr (Or.inl rfl)
    · exact Or.inr (Or.inr rfl)

/-- A member contains no occurrence unless it has the name and its value begins with the tail. -/
theorem strstr_member (hk : SearchKey key) {r : Bytes} (hr : Closes r)
    (hne : m.name.bytes = key → ¬ tail <+: m.valueText sp ++ r) :
    strstr (m.text sp ++ r) (memberNeedle key tail) = strstr r (memberNeedle key tail) := by
  have htext : m.text sp ++ r = 34 :: (m.name.bytes ++ 34 :: 58 :: (m.valueText sp ++ r)) := by
    simp [JsonMember.text]
  have hno : ¬ memberNeedle key tail <+: 34 :: (m.name.bytes ++ 34 :: 58 :: (m.valueText sp ++ r)) := by
    intro hp
    obtain ⟨h1, h2⟩ := eq_of_delimited hk.not_mem_quote m.name.not_mem_quote
      (List.cons_prefix_cons.1 hp).2
    exact hne h1.symm (List.cons_prefix_cons.1 h2).2
  rw [htext, strstr_cons_of_not_isPrefix hno]
  refine (strstr_append_of_not_mem m.name.not_mem_quote).trans ?_
  refine (strstr_closing_quote hk (Or.inl rfl)).trans ?_
  refine (strstr_cons_of_ne (by decide)).trans ?_
  exact strstr_value hk hr

theorem strstr_member_found (h : ∀ r, tail <+: m.valueText sp ++ r) (r : Bytes) :
    strstr (m.text sp ++ r) (memberNeedle m.name.bytes tail) = some (m.text sp ++ r) := by
  apply strstr_of_isPrefix
  obtain ⟨t, ht⟩ := h r
  refine ⟨t, ?_⟩
  simp [memberNeedle, JsonMember.text, ← ht]

theorem strstr_comma {ms : List JsonMember} {r : Bytes} :
    strstr (jsonTail sp (m :: ms) ++ r) (memberNeedle key tail) =
      strstr (m.text sp ++ (jsonTail sp ms ++ r)) (memberNeedle key tail) := by
  have htext : jsonTail sp (m :: ms) ++ r =
      44 :: (List.replicate sp.afterComma 32 ++ (m.text sp ++ (jsonTail sp ms ++ r))) := by
    simp [jsonTail]
  rw [htext]
  refine (strstr_cons_of_ne (by decide)).trans ?_
  exact strstr_append_of_not_mem (not_mem_replicate_space (by decide) _)

theorem strstr_jsonObject (ms : List JsonMember) (r : Bytes) :
    strstr (jsonObject sp ms ++ r) (memberNeedle key tail) =
      strstr (jsonTail sp ms ++ r) (memberNeedle key tail) := by
  cases ms with
  | nil => exact strstr_cons_of_ne (by decide)
  | cons m ms =>
    rw [strstr_comma]
    have htext : jsonObject sp (m :: ms) ++ r = 123 :: (m.text sp ++ (jsonTail sp ms ++ r)) := by
      simp [jsonObject]
    rw [htext]
    exact strstr_cons_of_ne (by decide)

/-- In an object with distinct names, the search finds the member of the name. -/
theorem strstr_jsonObject_found (sp : JsonSpacing) (tail : Bytes) {ms : List JsonMember}
    {m : JsonMember} (hk : SearchKey m.name.bytes)
    (hm : m ∈ ms) (hnames : (ms.map fun m => m.name.bytes).Nodup)
    (htail : ∀ r, tail <+: m.valueText sp ++ r) (r : Bytes) :
    ∃ r', Closes r' ∧ strstr (jsonObject sp ms ++ r) (memberNeedle m.name.bytes tail) =
      some (m.text sp ++ r') := by
  rw [strstr_jsonObject]
  induction ms with
  | nil => cases hm
  | cons m' ms ih =>
    rw [strstr_comma]
    rw [List.map_cons, List.nodup_cons] at hnames
    rcases List.mem_cons.1 hm with rfl | hm'
    · exact ⟨_, closes_jsonTail sp ms r, strstr_member_found htail _⟩
    · have hne : m'.name.bytes ≠ m.name.bytes := by
        intro h
        exact hnames.1 (h ▸ List.mem_map_of_mem hm')
      obtain ⟨r', hr', h⟩ := ih hm' hnames.2
      refine ⟨r', hr', ?_⟩
      rw [strstr_member hk (closes_jsonTail sp ms r) fun h => absurd h hne]
      exact h

/-- The search finds nothing when no member of the name has a value that begins with the tail. -/
theorem strstr_jsonObject_none {ms : List JsonMember} (hk : SearchKey key)
    (hms : ∀ m ∈ ms, m.name.bytes = key → ∀ r, ¬ tail <+: m.valueText sp ++ r) {r : Bytes}
    (hr : (34 : Byte) ∉ r) : strstr (jsonObject sp ms ++ r) (memberNeedle key tail) = none := by
  rw [strstr_jsonObject]
  induction ms with
  | nil =>
    refine (strstr_cons_of_ne (by decide)).trans ?_
    exact strstr_eq_none_of_not_mem hr
  | cons m ms ih =>
    rw [strstr_comma, strstr_member hk (closes_jsonTail sp ms r)
      fun h => hms m List.mem_cons_self h _]
    exact ih fun m' hm' => hms m' (List.mem_cons_of_mem _ hm')

/-- An object without spaces after its commas, as the list of its members. -/
theorem jsonObject_eq_intercalate (hsp : sp.afterComma = 0) (ms : List JsonMember) :
    jsonObject sp ms = 123 :: ([44].intercalate (ms.map (JsonMember.text sp)) ++ [125]) := by
  have htail : ∀ (m : JsonMember) (ms : List JsonMember), m.text sp ++ jsonTail sp ms =
      [44].intercalate ((m :: ms).map (JsonMember.text sp)) ++ [125] := by
    intro m ms
    induction ms generalizing m with
    | nil => simp [jsonTail, List.intercalate]
    | cons m' ms ih =>
      have hcons : [44].intercalate ((m :: m' :: ms).map (JsonMember.text sp)) =
          m.text sp ++ 44 :: [44].intercalate ((m' :: ms).map (JsonMember.text sp)) := by
        simp [List.intercalate]
      rw [jsonTail, hsp, List.replicate_zero, List.nil_append, ih m', hcons, List.append_assoc,
        List.cons_append]
  cases ms with
  | nil => rfl
  | cons m ms => rw [jsonObject, htail]

/-! ## All bytes of an object -/

/-- A property of bytes that the punctuation and the numbers have. -/
structure OfPunctuation (P : Byte → Prop) : Prop where
  punctuation : ∀ c ∈ [32, 34, 44, 58, 123, 125], P c
  number : ∀ c, isDigit c = true ∨ c ∈ [45, 46, 69, 101, 43] → P c

/-- The strings of a member have the property. -/
def JsonMember.AllPlain (P : Byte → Prop) (m : JsonMember) : Prop :=
  (∀ c ∈ m.name.bytes, P c) ∧ ∀ s, m.value = .str s → ∀ c ∈ s.bytes, P c

variable {P : Byte → Prop}

theorem JsonMember.forall_mem_text (hP : OfPunctuation P) (hm : m.AllPlain P) :
    ∀ c ∈ m.text sp, P c := by
  intro c h
  have hpun := hP.punctuation
  simp only [List.forall_mem_cons] at hpun
  obtain ⟨hspace, hquote, -, hcolon, -, -, -⟩ := hpun
  simp only [JsonMember.text, JsonMember.valueText, List.mem_cons, List.mem_append] at h
  rcases h with rfl | h | rfl | rfl | h | h
  · exact hquote
  · exact hm.1 c h
  · exact hquote
  · exact hcolon
  · rw [List.eq_of_mem_replicate h]
    exact hspace
  · cases hv : m.value with
    | num n =>
      rw [hv] at h
      exact hP.number c (JsonNumber.mem_text h)
    | str s =>
      rw [hv] at h
      simp only [JsonScalar.text, List.mem_cons, List.mem_append, List.not_mem_nil, or_false] at h
      rcases h with rfl | h | rfl
      · exact hquote
      · exact hm.2 s hv c h
      · exact hquote

theorem forall_mem_jsonTail (hP : OfPunctuation P) {ms : List JsonMember}
    (hms : ∀ m ∈ ms, m.AllPlain P) : ∀ c ∈ jsonTail sp ms, P c := by
  induction ms with
  | nil =>
    intro c h
    rw [List.mem_singleton.1 h]
    exact hP.punctuation 125 (by simp)
  | cons m ms ih =>
    intro c h
    simp only [jsonTail, List.mem_cons, List.mem_append] at h
    rcases h with rfl | h | h | h
    · exact hP.punctuation 44 (by simp)
    · rw [List.eq_of_mem_replicate h]
      exact hP.punctuation 32 (by simp)
    · exact JsonMember.forall_mem_text hP (hms m List.mem_cons_self) c h
    · exact ih (fun m' hm' => hms m' (List.mem_cons_of_mem _ hm')) c h

theorem forall_mem_jsonObject (hP : OfPunctuation P) {ms : List JsonMember}
    (hms : ∀ m ∈ ms, m.AllPlain P) : ∀ c ∈ jsonObject sp ms, P c := by
  intro c h
  cases ms with
  | nil =>
    simp only [jsonObject, List.mem_cons, List.not_mem_nil, or_false] at h
    rcases h with rfl | rfl
    · exact hP.punctuation 123 (by simp)
    · exact hP.punctuation 125 (by simp)
  | cons m ms =>
    simp only [jsonObject, List.mem_cons, List.mem_append] at h
    rcases h with rfl | h | h
    · exact hP.punctuation 123 (by simp)
    · exact JsonMember.forall_mem_text hP (hms m List.mem_cons_self) c h
    · exact forall_mem_jsonTail hP (fun m' hm' => hms m' (List.mem_cons_of_mem _ hm')) c h

theorem ofPunctuation_of_le {lo hi : Byte} (hlo : lo ≤ 32) (hhi : 125 ≤ hi) :
    OfPunctuation fun c => lo ≤ c ∧ c ≤ hi := by
  have h : ∀ c : Byte, 32 ≤ c.toNat → c.toNat ≤ 125 → lo ≤ c ∧ c ≤ hi := by
    intro c h1 h2
    simp only [UInt8.le_iff_toNat_le] at hlo hhi ⊢
    have h32 : (32 : Byte).toNat = 32 := rfl
    have h125 : (125 : Byte).toNat = 125 := rfl
    omega
  constructor
  · intro c hc
    simp only [List.mem_cons, List.not_mem_nil, or_false] at hc
    rcases hc with rfl | rfl | rfl | rfl | rfl | rfl <;> exact h _ (by decide) (by decide)
  · rintro c (hc | hc)
    · have hd := isDigit_iff.1 hc
      exact h c (by omega) (by omega)
    · simp only [List.mem_cons, List.not_mem_nil, or_false] at hc
      rcases hc with rfl | rfl | rfl | rfl | rfl <;> exact h _ (by decide) (by decide)

theorem jsonObject_ne_zero {ms : List JsonMember} {c : Byte} (h : c ∈ jsonObject sp ms) : c ≠ 0 := by
  have hplain : ∀ s : JsonString, ∀ d ∈ s.bytes, 1 ≤ d ∧ d ≤ 255 := by
    intro s d hd
    have h32 := (s.plain d hd).2.2
    have hlt := d.toNat_lt
    simp only [UInt8.le_iff_toNat_le] at h32 ⊢
    have h1 : (32 : Byte).toNat = 32 := rfl
    have h2 : (1 : Byte).toNat = 1 := rfl
    have h3 : (255 : Byte).toNat = 255 := rfl
    omega
  have hall : 1 ≤ c ∧ c ≤ 255 :=
    forall_mem_jsonObject (ofPunctuation_of_le (by decide) (by decide))
      (fun m _ => ⟨hplain m.name, fun s _ => hplain s⟩) c h
  rintro rfl
  exact absurd hall.1 (by decide)

end Lib
