import EdnaDrone.Lib.CString
import EdnaDrone.Lib.Flt

/-!
# `printf` conversions

The conversions `%d`, `%lu` and `%.nf`, and `snprintf`. A finite number is printed in full, rounded
to the nearest multiple of `10 ^ -n` with ties to even on its exact value; the sign of a negative
number is printed even when it rounds to zero.
-/

namespace Lib

/-- `%lu`. -/
def fmtNat (n : ℕ) : Bytes := (Nat.toDigits 10 n).map fun c => c.toNat.toUInt8

/-- `%d`. -/
def fmtInt (n : ℤ) : Bytes := if n < 0 then 45 :: fmtNat n.natAbs else fmtNat n.natAbs

/-- The multiple of `10 ^ -p` nearest to a magnitude. -/
def scaled (p : ℕ) (mag : ℚ) : ℕ := (roundHalfEven (mag * 10 ^ p)).toNat

/-- The digits of `n · 10 ^ -p`. -/
def fmtScaled (p n : ℕ) : Bytes :=
  fmtNat (n / 10 ^ p) ++ 46 :: List.leftpad p 48 (fmtNat (n % 10 ^ p))

def fmtSign (neg : Bool) : Bytes := if neg then [45] else []

/-- `%.pf`. There is one NaN here; C prints one with its sign bit set as `-nan`. -/
def fmtFixed {fmt : FloatFormat} (p : ℕ) : Flt fmt → Bytes
  | .nan => ascii "nan"
  | .inf s => fmtSign s ++ ascii "inf"
  | .fin s a => fmtSign s ++ fmtScaled p (scaled p a)

/-- `snprintf`: the bytes stored before the terminating NUL, and the length it returns, which is
that of the whole text. -/
def snprintf (size : ℕ) (text : Bytes) : Bytes × ℕ := (text.take (size - 1), text.length)

/-- The number of decimal digits that `%lu` prints. -/
def numDigits (n : ℕ) : ℕ := (fmtNat n).length

theorem numDigits_eq (n : ℕ) : numDigits n = (Nat.toDigits 10 n).length := by
  simp [numDigits, fmtNat]

theorem numDigits_le {n k : ℕ} (hk : 0 < k) (h : n < 10 ^ k) : numDigits n ≤ k := by
  rw [numDigits_eq]
  exact (Nat.length_toDigits_le_iff (by norm_num) hk).2 h

/-! ## Widths -/

def fixedWidth {fmt : FloatFormat} (p : ℕ) : Flt fmt → ℕ
  | .nan => 3
  | .inf s => s.toNat + 3
  | .fin s a => s.toNat + (numDigits (scaled p a / 10 ^ p) + 1 + p)

theorem fmtSign_length (s : Bool) : (fmtSign s).length = s.toNat := by
  cases s <;> rfl

theorem fmtScaled_length {p : ℕ} (hp : 0 < p) (n : ℕ) :
    (fmtScaled p n).length = numDigits (n / 10 ^ p) + 1 + p := by
  have h := numDigits_le hp (Nat.mod_lt n (by positivity : 0 < 10 ^ p))
  unfold numDigits at h
  unfold fmtScaled numDigits
  rw [List.length_append, List.length_cons, List.length_leftpad]
  omega

theorem fmtFixed_length {fmt : FloatFormat} {p : ℕ} (hp : 0 < p) (x : Flt fmt) :
    (fmtFixed p x).length = fixedWidth p x := by
  cases x with
  | nan => rfl
  | inf s =>
    simp only [fmtFixed, fixedWidth, List.length_append, fmtSign_length]
    rfl
  | fin s a =>
    simp only [fmtFixed, fixedWidth, List.length_append, fmtSign_length, fmtScaled_length hp]

/-- A number of magnitude below `10 ^ k` has at most `k` digits before the point, or one more when
it rounds up. -/
theorem fixedWidth_le {fmt : FloatFormat} {p k : ℕ} {s : Bool} {a : fmt.Mag}
    (h : (a : ℚ) ≤ 10 ^ k) : fixedWidth p (.fin s a : Flt fmt) ≤ s.toNat + (k + 1) + 1 + p := by
  have h1 : (a : ℚ) * 10 ^ p ≤ ((10 ^ (k + p) : ℕ) : ℤ) := by
    push_cast
    rw [pow_add]
    exact mul_le_mul_of_nonneg_right h (by positivity)
  have h2 : scaled p a ≤ 10 ^ (k + p) := Int.toNat_le.2 (roundHalfEven_le h1)
  have h3 : scaled p a / 10 ^ p < 10 ^ (k + 1) := by
    rw [Nat.div_lt_iff_lt_mul (by positivity), ← pow_add]
    exact h2.trans_lt (Nat.pow_lt_pow_right (by norm_num) (by omega))
  have h4 := numDigits_le (Nat.succ_pos k) h3
  show s.toNat + (numDigits (scaled p a / 10 ^ p) + 1 + p) ≤ s.toNat + (k + 1) + 1 + p
  omega

end Lib
