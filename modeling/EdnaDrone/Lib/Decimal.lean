import EdnaDrone.Lib.Json
import EdnaDrone.Lib.Printf

/-!
# Printed numbers as JSON numbers

What `%lu`, `%d` and `%.pf` print is a number of the JSON grammar, and it denotes the number that was
printed, rounded to `p` decimals.
-/

namespace Lib

/-! ## Digits -/

theorem digitsVal_append (b : ℕ) (xs ys : Bytes) :
    digitsVal b (xs ++ ys) = digitsVal b xs * b ^ ys.length + digitsVal b ys := by
  induction ys using List.reverseRecOn with
  | nil => simp [digitsVal]
  | append_singleton ys d ih =>
    have hsnoc : ∀ ds, digitsVal b (ds ++ [d]) = b * digitsVal b ds + digitVal d := by
      intro ds
      simp [digitsVal]
    rw [← List.append_assoc, hsnoc, hsnoc, ih, List.length_append, List.length_singleton, pow_succ]
    ring

theorem digitsVal_leftpad (p : ℕ) (ds : Bytes) :
    digitsVal 10 (List.leftpad p 48 ds) = digitsVal 10 ds := by
  have hzero : ∀ k, digitsVal 10 (List.replicate k 48) = 0 := by
    intro k
    induction k with
    | zero => rfl
    | succ k ih =>
      rw [List.replicate_succ', digitsVal_append, ih]
      rfl
  rw [List.leftpad, digitsVal_append, hzero, zero_mul, zero_add]

def digitByte (d : ℕ) : Byte := (Nat.digitChar d).toNat.toUInt8

theorem digitVal_digitByte : ∀ d < 10, digitVal (digitByte d) = d := by decide

theorem isDigit_digitByte : ∀ d < 10, isDigit (digitByte d) = true := by decide

theorem fmtNat_eq_if (n : ℕ) :
    fmtNat n = if n < 10 then [digitByte n] else fmtNat (n / 10) ++ [digitByte (n % 10)] := by
  unfold fmtNat
  rw [Nat.toDigits_eq_if (by norm_num)]
  split
  · rfl
  · rw [List.map_append]
    rfl

theorem fmtNat_ne_nil (n : ℕ) : fmtNat n ≠ [] := by
  rw [fmtNat_eq_if]
  split <;> simp

theorem isDigit_fmtNat {n : ℕ} {c : Byte} (h : c ∈ fmtNat n) : isDigit c = true := by
  induction n using Nat.strongRecOn with
  | _ n ih =>
    rw [fmtNat_eq_if] at h
    split at h
    · rename_i hn
      rw [List.mem_singleton.1 h]
      exact isDigit_digitByte n hn
    · rcases List.mem_append.1 h with h | h
      · exact ih (n / 10) (by omega) h
      · rw [List.mem_singleton.1 h]
        exact isDigit_digitByte (n % 10) (Nat.mod_lt n (by norm_num))

theorem digitsVal_fmtNat (n : ℕ) : digitsVal 10 (fmtNat n) = n := by
  induction n using Nat.strongRecOn with
  | _ n ih =>
    rw [fmtNat_eq_if]
    split
    · rename_i hn
      simp [digitsVal, digitVal_digitByte n hn]
    · have hd := digitVal_digitByte (n % 10) (Nat.mod_lt n (by norm_num))
      rw [digitsVal_append, ih (n / 10) (by omega)]
      simp only [digitsVal, List.foldl_cons, List.foldl_nil, List.length_singleton, hd]
      omega

/-- No leading zeros. -/
theorem fmtNat_eq_zero {n : ℕ} (h : (fmtNat n).head? = some 48) : fmtNat n = [48] := by
  have hpos : ∀ d < 10, digitByte d = 48 → d = 0 := by decide
  suffices h0 : n = 0 by
    rw [h0]
    rfl
  induction n using Nat.strongRecOn with
  | _ n ih =>
    rw [fmtNat_eq_if] at h
    split at h
    · rename_i hn
      exact hpos n hn (Option.some.inj h)
    · have hhead : (fmtNat (n / 10)).head? = some 48 := by
        rw [List.head?_append] at h
        cases hf : (fmtNat (n / 10)).head? with
        | none => exact absurd (List.head?_eq_none_iff.1 hf) (fmtNat_ne_nil _)
        | some c => simpa [hf] using h
      have hq := ih (n / 10) (by omega) hhead
      omega

/-! ## The numbers printed -/

/-- The value of a number. -/
def JsonNumber.value (n : JsonNumber) : ℚ := Flt.signed n.neg n.mag

/-- What `%d` prints. -/
def intNumber (neg : Bool) (n : ℕ) : JsonNumber where
  neg := neg
  int := fmtNat n
  frac := []
  exp := none
  int_ne := fmtNat_ne_nil n
  int_isDigit := fun _ h => isDigit_fmtNat h
  frac_isDigit := fun _ h => absurd h List.not_mem_nil
  int_zero := fmtNat_eq_zero

/-- What `%.pf` prints for a sign and a multiple of `10 ^ -p`. -/
def fixedNumber (p : ℕ) (neg : Bool) (n : ℕ) : JsonNumber where
  neg := neg
  int := fmtNat (n / 10 ^ p)
  frac := List.leftpad p 48 (fmtNat (n % 10 ^ p))
  exp := none
  int_ne := fmtNat_ne_nil _
  int_isDigit := fun _ h => isDigit_fmtNat h
  frac_isDigit := by
    intro c h
    rcases List.mem_append.1 h with h | h
    · rw [List.eq_of_mem_replicate h]
      rfl
    · exact isDigit_fmtNat h
  int_zero := fmtNat_eq_zero

theorem text_intNumber (neg : Bool) (n : ℕ) : (intNumber neg n).text = fmtSign neg ++ fmtNat n := by
  show fmtSign neg ++ (fmtNat n ++ ([] ++ [])) = _
  rw [List.append_nil, List.append_nil]

theorem mag_intNumber (neg : Bool) (n : ℕ) : (intNumber neg n).mag = n := by
  simp [JsonNumber.mag, JsonNumber.expVal, intNumber, digitsVal_fmtNat]

theorem length_frac {p : ℕ} (hp : 0 < p) (neg : Bool) (n : ℕ) :
    (fixedNumber p neg n).frac.length = p := by
  have h : (fmtNat (n % 10 ^ p)).length ≤ p :=
    numDigits_le hp (Nat.mod_lt n (by positivity))
  show (List.leftpad p 48 (fmtNat (n % 10 ^ p))).length = p
  rw [List.length_leftpad]
  omega

theorem text_fixedNumber {p : ℕ} (hp : 0 < p) (neg : Bool) (n : ℕ) :
    (fixedNumber p neg n).text = fmtSign neg ++ fmtScaled p n := by
  have hne : (fixedNumber p neg n).frac ≠ [] := by
    intro h
    have := length_frac hp neg n
    rw [h] at this
    exact hp.ne this
  rw [JsonNumber.text, JsonNumber.restText, JsonNumber.fracText, if_neg hne]
  show fmtSign neg ++ (fmtNat (n / 10 ^ p) ++ ((46 :: (fixedNumber p neg n).frac) ++ [])) = _
  rw [List.append_nil]
  rfl

theorem mag_fixedNumber {p : ℕ} (hp : 0 < p) (neg : Bool) (n : ℕ) :
    (fixedNumber p neg n).mag = n / 10 ^ p := by
  have hlen := length_frac hp neg n
  have hdigits : digitsVal 10 ((fixedNumber p neg n).int ++ (fixedNumber p neg n).frac) = n := by
    rw [digitsVal_append, hlen]
    show digitsVal 10 (fmtNat (n / 10 ^ p)) * 10 ^ p +
      digitsVal 10 (List.leftpad p 48 (fmtNat (n % 10 ^ p))) = n
    rw [digitsVal_leftpad, digitsVal_fmtNat, digitsVal_fmtNat]
    exact Nat.div_add_mod' n (10 ^ p)
  have hexp : JsonNumber.expVal (fixedNumber p neg n).exp = 0 := rfl
  rw [JsonNumber.mag, hdigits, hexp, hlen, zero_sub, zpow_neg, zpow_natCast]
  rfl

/-! ## Rounding to decimals -/

/-- The multiple of `10 ^ -p` nearest to a number, ties to even. -/
def roundTo (p : ℕ) (q : ℚ) : ℚ := roundHalfEven (q * 10 ^ p) / 10 ^ p

theorem abs_roundTo_sub_le (p : ℕ) (q : ℚ) : |roundTo p q - q| ≤ 1 / 2 / 10 ^ p := by
  have h10 : (0 : ℚ) < 10 ^ p := by positivity
  have hsub : roundTo p q - q = ((roundHalfEven (q * 10 ^ p) : ℚ) - q * 10 ^ p) / 10 ^ p := by
    unfold roundTo
    field_simp
  rw [hsub, abs_div, abs_of_pos h10]
  exact div_le_div_of_nonneg_right (abs_roundHalfEven_sub_le _) h10.le

theorem signed_scaled {p : ℕ} {a : ℚ} (ha : 0 ≤ a) (neg : Bool) :
    Flt.signed neg ((scaled p a : ℚ) / 10 ^ p) = roundTo p (Flt.signed neg a) := by
  have h0 : 0 ≤ roundHalfEven (a * 10 ^ p) := le_roundHalfEven (by positivity)
  have hcast : ((scaled p a : ℕ) : ℚ) = roundHalfEven (a * 10 ^ p) := by
    unfold scaled
    exact_mod_cast Int.toNat_of_nonneg h0
  rw [hcast]
  unfold Flt.signed roundTo
  cases neg with
  | true =>
    rw [if_pos rfl, if_pos rfl, neg_mul, roundHalfEven_neg, Int.cast_neg, neg_div]
  | false => rfl

/-- A magnitude printed with its sign denotes the number rounded to the decimals printed. -/
theorem value_fixedNumber {p : ℕ} (hp : 0 < p) {a : ℚ} (ha : 0 ≤ a) (neg : Bool) :
    (fixedNumber p neg (scaled p a)).value = roundTo p (Flt.signed neg a) := by
  rw [← signed_scaled ha, ← mag_fixedNumber hp neg]
  rfl

end Lib
