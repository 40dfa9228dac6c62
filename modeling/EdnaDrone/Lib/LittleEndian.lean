import EdnaDrone.Lib.CString

/-!
# Little-endian integers in a byte buffer

`ofLE` reads a number from its bytes, the least significant one first. A read that reaches past the
end of the buffer takes the missing bytes as zero.
-/

namespace Lib

/-- The `w` little-endian bytes of `n`. -/
def toLE : ℕ → ℕ → Bytes
  | 0, _ => []
  | w + 1, n => UInt8.ofNat n :: toLE w (n / 256)

def ofLE : Bytes → ℕ
  | [] => 0
  | b :: bs => b.toNat + 256 * ofLE bs

theorem ofLE_toLE {w n : ℕ} (h : n < 256 ^ w) : ofLE (toLE w n) = n := by
  induction w generalizing n with
  | zero =>
    simp only [pow_zero, Nat.lt_one_iff] at h
    rw [h]
    rfl
  | succ w ih =>
    have hq : n / 256 < 256 ^ w := Nat.div_lt_of_lt_mul (by rwa [← pow_succ'])
    have hb : (UInt8.ofNat n).toNat = n % 256 := by simp
    show (UInt8.ofNat n).toNat + 256 * ofLE (toLE w (n / 256)) = n
    rw [ih hq, hb]
    omega

theorem ofLE_replicate_zero (n : ℕ) : ofLE (List.replicate n 0) = 0 := by
  induction n with
  | zero => rfl
  | succ n ih =>
    rw [List.replicate_succ, ofLE, ih]
    rfl

/-- The bytes of a little-endian field of width `w` at an offset. -/
def fieldAt (buf : Bytes) (off w : ℕ) : Bytes := (buf.drop off).take w

def u16At (buf : Bytes) (off : ℕ) : UInt16 := UInt16.ofNat (ofLE (fieldAt buf off 2))

def i32At (buf : Bytes) (off : ℕ) : Int32 := (UInt32.ofNat (ofLE (fieldAt buf off 4))).toInt32

end Lib
