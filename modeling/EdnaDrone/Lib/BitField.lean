import EdnaDrone.Lib.LittleEndian
import Mathlib.Algebra.Order.Ring.Nat

/-!
# Bit fields of little-endian numbers

The bits of a byte sequence are those of its little-endian value. A field that lies in some of the bytes
can be read from these alone.
-/

namespace Lib

theorem length_toLE (w n : ℕ) : (toLE w n).length = w := by
  induction w generalizing n with
  | zero => rfl
  | succ w ih => rw [toLE, List.length_cons, ih]

theorem ofLE_lt (bs : Bytes) : ofLE bs < 256 ^ bs.length := by
  induction bs with
  | nil => decide
  | cons b bs ih =>
    have hb := b.toNat_lt
    rw [ofLE, List.length_cons, pow_succ]
    omega

theorem ofLE_append (bs cs : Bytes) : ofLE (bs ++ cs) = ofLE bs + 256 ^ bs.length * ofLE cs := by
  induction bs with
  | nil => simp [ofLE]
  | cons b bs ih =>
    rw [List.cons_append, ofLE, ofLE, ih, List.length_cons, pow_succ]
    ring

theorem ofLE_drop (bs : Bytes) {k : ℕ} (h : k ≤ bs.length) : ofLE bs / 256 ^ k = ofLE (bs.drop k) := by
  have hlen : (bs.take k).length = k := List.length_take_of_le h
  have hlt := ofLE_lt (bs.take k)
  rw [hlen] at hlt
  conv_lhs => rw [← List.take_append_drop k bs, ofLE_append, hlen]
  rw [Nat.add_mul_div_left _ _ (by positivity), Nat.div_eq_of_lt hlt, Nat.zero_add]

theorem ofLE_take (bs : Bytes) {k : ℕ} (h : k ≤ bs.length) : ofLE bs % 256 ^ k = ofLE (bs.take k) := by
  have hlen : (bs.take k).length = k := List.length_take_of_le h
  have hlt := ofLE_lt (bs.take k)
  rw [hlen] at hlt
  conv_lhs => rw [← List.take_append_drop k bs, ofLE_append, hlen]
  rw [Nat.add_mul_mod_self_left, Nat.mod_eq_of_lt hlt]

/-- The `size` bits of `n` from bit `start` on. -/
def bitField (n start size : ℕ) : ℕ := n / 2 ^ start % 2 ^ size

theorem bitField_lt (n start size : ℕ) : bitField n start size < 2 ^ size :=
  Nat.mod_lt _ (by positivity)

/-- Bits above a field do not matter. -/
theorem bitField_mod {n start size w : ℕ} (h : start + size ≤ w) :
    bitField (n % 2 ^ w) start size = bitField n start size := by
  have hsplit : 2 ^ w = 2 ^ start * 2 ^ (w - start) := by
    rw [← pow_add]
    congr 1
    omega
  have hdvd : 2 ^ size ∣ 2 ^ (w - start) := pow_dvd_pow 2 (by omega)
  unfold bitField
  rw [hsplit, Nat.mod_mul_right_div_self, Nat.mod_mod_of_dvd _ hdvd]

/-- A field can be read from the bytes it lies in. -/
theorem bitField_ofLE {bs : Bytes} {start size n : ℕ} (hbits : start % 8 + size ≤ 8 * n)
    (hfit : start / 8 + n ≤ bs.length) :
    bitField (ofLE bs) start size = bitField (ofLE (fieldAt bs (start / 8) n)) (start % 8) size := by
  have hpow : ∀ k, 256 ^ k = 2 ^ (8 * k) := fun k => by
    rw [show (256 : ℕ) = 2 ^ 8 from rfl, ← pow_mul]
  have hstart : 2 ^ start = 256 ^ (start / 8) * 2 ^ (start % 8) := by
    rw [hpow, ← pow_add, Nat.div_add_mod]
  have hdrop : bitField (ofLE bs) start size = bitField (ofLE (bs.drop (start / 8))) (start % 8) size := by
    unfold bitField
    rw [hstart, ← Nat.div_div_eq_div_mul, ofLE_drop bs (by omega)]
  have htake : ofLE (fieldAt bs (start / 8) n) = ofLE (bs.drop (start / 8)) % 2 ^ (8 * n) := by
    rw [fieldAt, ← hpow, ofLE_take]
    rw [List.length_drop]
    omega
  rw [hdrop, htake, bitField_mod hbits]

/-! ## Packing -/

/-- A value and the place it is packed to. -/
structure Packed where
  start : ℕ
  size : ℕ
  value : ℕ

/-- The number with the values at their places. -/
def pack : List Packed → ℕ
  | [] => 0
  | f :: fs => f.value * 2 ^ f.start + pack fs

/-- The fields lie one behind the other from bit `base` on, with or without gaps, and each value fits its
field. -/
inductive Ascending : ℕ → List Packed → Prop where
  | nil {base : ℕ} : Ascending base []
  | cons {base : ℕ} {f : Packed} {fs : List Packed} (hstart : base ≤ f.start)
    (hvalue : f.value < 2 ^ f.size) (hrest : Ascending (f.start + f.size) fs) :
    Ascending base (f :: fs)

variable {base : ℕ} {fs : List Packed}

theorem dvd_pack (h : Ascending base fs) : 2 ^ base ∣ pack fs := by
  induction h with
  | nil => exact dvd_zero _
  | @cons base f fs hstart _ _ ih =>
    have hlater : 2 ^ base ∣ 2 ^ (f.start + f.size) := pow_dvd_pow 2 (by omega)
    exact dvd_add ((pow_dvd_pow 2 hstart).mul_left _) (hlater.trans ih)

/-- Unpacking gives each value back, whatever the bits below the fields are. -/
theorem bitField_pack (h : Ascending base fs) {low : ℕ} (hlow : low < 2 ^ base) :
    ∀ f ∈ fs, bitField (low + pack fs) f.start f.size = f.value := by
  induction h generalizing low with
  | nil => simp
  | @cons base f fs hstart hvalue hrest ih =>
    have hlow' : low < 2 ^ f.start := hlow.trans_le (Nat.pow_le_pow_right (by omega) hstart)
    intro f' hf'
    rcases List.mem_cons.1 hf' with rfl | hf'
    · obtain ⟨m, hm⟩ := dvd_pack hrest
      have hsum : low + pack (f' :: fs) = low + 2 ^ f'.start * (f'.value + 2 ^ f'.size * m) := by
        rw [pack, hm, pow_add]
        ring
      unfold bitField
      rw [hsum, Nat.add_mul_div_left _ _ (Nat.two_pow_pos _), Nat.div_eq_of_lt hlow', Nat.zero_add,
        Nat.add_mul_mod_self_left, Nat.mod_eq_of_lt hvalue]
    · have hsum : low + pack (f :: fs) = low + f.value * 2 ^ f.start + pack fs := by
        rw [pack, Nat.add_assoc]
      have hlt : low + f.value * 2 ^ f.start < 2 ^ (f.start + f.size) := by
        have hle : (f.value + 1) * 2 ^ f.start ≤ 2 ^ f.size * 2 ^ f.start :=
          Nat.mul_le_mul_right _ hvalue
        rw [pow_add, Nat.mul_comm (2 ^ f.start)]
        rw [Nat.add_mul, Nat.one_mul] at hle
        omega
      rw [hsum]
      exact ih hlt f' hf'

end Lib
