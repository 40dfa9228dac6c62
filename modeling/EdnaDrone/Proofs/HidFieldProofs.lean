import EdnaDrone.Lib.BitField
import EdnaDrone.Proofs.HidReportProofs
import Mathlib.Data.Nat.Bitwise

/-!
# The value of a field

A field that ends inside the report and spans four bytes at most is read as its bits of the little-endian
report, as a two's complement if its logical minimum is negative. A field that ends behind the report is
read from one byte too many.
-/

namespace EdnaDrone

open Lib

section Parser

variable {report report' : ℕ → UInt8} {reportLen : UInt16}

/-- The first `n` bytes of the memory that the report lies in. -/
def reportBytes (report : ℕ → UInt8) (n : ℕ) : Bytes := (List.range n).map report

theorem length_reportBytes (n : ℕ) : (reportBytes report n).length = n := by simp [reportBytes]

theorem reportBytes_succ (n : ℕ) : reportBytes report (n + 1) = reportBytes report n ++ [report n] := by
  simp [reportBytes, List.range_succ]

theorem fieldAt_reportBytes {start count n : ℕ} (h : start + count ≤ n) :
    fieldAt (reportBytes report n) start count = reportBytes (fun i => report (start + i)) count := by
  refine List.ext_getElem ?_ ?_
  · simp only [fieldAt, reportBytes, List.length_take, List.length_drop, List.length_map,
      List.length_range]
    omega
  · intro i h1 h2
    simp [fieldAt, reportBytes]

/-! ## Positions and bits -/

theorem toNat_posStart {bitPos : UInt16} {size : ℕ} (hsize : 0 < size)
    (hfit : bitPos.toNat + size ≤ 8 * reportLen.toNat) :
    posStart bitPos reportLen = bitPos.toNat / 8 := by
  have h : (bitPos >>> 3).toNat = bitPos.toNat / 8 := by
    rw [UInt16.toNat_shiftRight]
    simp [Nat.shiftRight_eq_div_pow]
  unfold posStart
  rw [h]
  omega

theorem toNat_posEnd {bitPos : UInt16} {size : UInt8} (hsize : 0 < size.toNat)
    (hfit : bitPos.toNat + size.toNat ≤ 8 * reportLen.toNat) :
    posEnd bitPos size reportLen = (bitPos.toNat + size.toNat - 1) / 8 := by
  have hb := bitPos.toNat_lt
  have hs := size.toNat_lt
  have hsum : (bitPos.toUInt32 + size.toUInt32 - 1).toNat = bitPos.toNat + size.toNat - 1 := by
    rw [UInt32.toNat_sub, UInt32.toNat_add, UInt16.toNat_toUInt32, UInt8.toNat_toUInt32]
    have h1 : (1 : UInt32).toNat = 1 := rfl
    omega
  have h : ((bitPos.toUInt32 + size.toUInt32 - 1) >>> 3).toNat =
      (bitPos.toNat + size.toNat - 1) / 8 := by
    rw [UInt32.toNat_shiftRight, hsum]
    simp [Nat.shiftRight_eq_div_pow]
  unfold posEnd
  rw [h]
  omega

theorem toInt_toInt32 (x : UInt32) :
    x.toInt32.toInt = if x.toNat < 2 ^ 31 then (x.toNat : ℤ) else (x.toNat : ℤ) - 2 ^ 32 := by
  have h : x.toInt32.toInt = x.toBitVec.toInt := rfl
  have hn : x.toBitVec.toNat = x.toNat := rfl
  rw [h, BitVec.toInt_eq_toNat_cond, hn]
  split_ifs <;> omega

/-- The highest bit of a field. -/
theorem and_highBit {bits size : ℕ} (hsize : 0 < size) (h : bits < 2 ^ size) :
    bits &&& 2 ^ (size - 1) ≠ 0 ↔ 2 ^ (size - 1) ≤ bits := by
  have hpos : 0 < 2 ^ (size - 1) := by positivity
  have hpow : 2 ^ size = 2 * 2 ^ (size - 1) := by
    rw [← pow_succ']
    congr 1
    omega
  have hdiv : bits / 2 ^ (size - 1) < 2 := Nat.div_lt_of_lt_mul (by rw [Nat.mul_comm]; omega)
  rw [Nat.and_two_pow, Nat.testBit_eq_decide_div_mod_eq]
  constructor
  · intro hne
    by_contra hlt
    rw [Nat.div_eq_of_lt (by omega)] at hne
    simp at hne
  · intro hle
    have hone : bits / 2 ^ (size - 1) = 1 := by
      have := Nat.div_pos hle hpos
      omega
    rw [hone]
    simp

variable [WideShift]

/-! ## Putting the bytes together -/

theorem shiftLeft_of_lt {x n : UInt32} (h : n < 32) : shiftLeft x n = x <<< n := if_pos h

theorem toNat_one_shiftLeft {n : UInt32} (h : n.toNat < 32) : (shiftLeft 1 n).toNat = 2 ^ n.toNat := by
  have h1 : (1 : UInt32).toNat = 1 := rfl
  have hpow : 2 ^ n.toNat < 2 ^ 32 := Nat.pow_lt_pow_right (by omega) h
  rw [shiftLeft_of_lt (UInt32.lt_iff_toNat_lt.2 h), UInt32.toNat_shiftLeft, Nat.mod_eq_of_lt h, h1,
    Nat.one_shiftLeft, Nat.mod_eq_of_lt hpow]

/-- A byte moved to its place in a word. -/
theorem toNat_shiftLeft_byte (b : UInt8) {i : ℕ} (h : i < 4) :
    (shiftLeft b.toUInt32 (UInt32.ofNat (i * 8))).toNat = 2 ^ (8 * i) * b.toNat := by
  have hb := b.toNat_lt
  have hn : (UInt32.ofNat (i * 8)).toNat = i * 8 :=
    UInt32.toNat_ofNat_of_lt' (by show i * 8 < 4294967296; omega)
  have hlt : UInt32.ofNat (i * 8) < 32 := by
    rw [UInt32.lt_iff_toNat_lt, hn]
    show i * 8 < 32
    omega
  have hfit : b.toNat * 2 ^ (i * 8) < 2 ^ 32 := by
    calc b.toNat * 2 ^ (i * 8) < 2 ^ 8 * 2 ^ (i * 8) := Nat.mul_lt_mul_of_pos_right hb (by positivity)
      _ = 2 ^ (8 + i * 8) := (pow_add 2 8 (i * 8)).symm
      _ ≤ 2 ^ 32 := Nat.pow_le_pow_right (by omega) (by omega)
  rw [shiftLeft_of_lt hlt, UInt32.toNat_shiftLeft, hn, Nat.mod_eq_of_lt (by omega : i * 8 < 32),
    UInt8.toNat_toUInt32, Nat.shiftLeft_eq, Nat.mod_eq_of_lt hfit, Nat.mul_comm i 8, Nat.mul_comm]

/-- Up to four bytes are put together to their little-endian value. -/
theorem toNat_multiByteValue (start : ℕ) {count : ℕ} (h : count ≤ 4) :
    (multiByteValue report start count).toNat =
      ofLE (reportBytes (fun i => report (start + i)) count) := by
  induction count with
  | zero => rfl
  | succ count ih =>
    have ih := ih (by omega)
    have hlt := ofLE_lt (reportBytes (fun i => report (start + i)) count)
    have hpow : 256 ^ count = 2 ^ (8 * count) := by
      rw [show (256 : ℕ) = 2 ^ 8 from rfl, ← pow_mul]
    have hstep : multiByteValue report start (count + 1) = multiByteValue report start count |||
        shiftLeft (report (start + count)).toUInt32 (UInt32.ofNat (count * 8)) := by
      unfold multiByteValue
      rw [List.range_succ, List.foldl_append]
      rfl
    rw [length_reportBytes, hpow] at hlt
    rw [hstep, UInt32.toNat_or, ih, toNat_shiftLeft_byte _ (by omega), Nat.or_comm,
      ← Nat.two_pow_add_eq_or_of_lt hlt, reportBytes_succ, ofLE_append, length_reportBytes, hpow,
      Nat.add_comm]
    rfl

/-! ## The bits of a field -/

theorem toNat_mask {size : UInt8} (h : size.toNat < 32) :
    (shiftLeft 1 size.toUInt32 - 1).toNat = 2 ^ size.toNat - 1 := by
  have hsize : size.toUInt32.toNat = size.toNat := UInt8.toNat_toUInt32 size
  have hpow : 2 ^ size.toNat < 2 ^ 32 := Nat.pow_lt_pow_right (by omega) h
  have hpos : 0 < 2 ^ size.toNat := by positivity
  have h1 : (1 : UInt32).toNat = 1 := rfl
  rw [UInt32.toNat_sub, toNat_one_shiftLeft (hsize ▸ h), hsize, h1]
  omega

/-- The bits of a field that ends inside the report and spans four bytes at most. -/
theorem toNat_unsignedValue {bitPos : UInt16} {size : UInt8} (hsize : 0 < size.toNat)
    (hsize' : size.toNat < 32) (hspan : bitPos.toNat % 8 + size.toNat ≤ 32)
    (hfit : bitPos.toNat + size.toNat ≤ 8 * reportLen.toNat) :
    (unsignedValue report reportLen bitPos size).toNat =
      bitField (ofLE (reportBytes report reportLen.toNat)) bitPos.toNat size.toNat := by
  have hcount : posEnd bitPos size reportLen + 1 - posStart bitPos reportLen =
      (bitPos.toNat + size.toNat - 1) / 8 + 1 - bitPos.toNat / 8 := by
    rw [toNat_posEnd hsize hfit, toNat_posStart hsize hfit]
  let count : ℕ := (bitPos.toNat + size.toNat - 1) / 8 + 1 - bitPos.toNat / 8
  have hcount4 : count ≤ 4 := by
    show (bitPos.toNat + size.toNat - 1) / 8 + 1 - bitPos.toNat / 8 ≤ 4
    omega
  have hbits : bitPos.toNat % 8 + size.toNat ≤ 8 * count := by
    show _ ≤ 8 * ((bitPos.toNat + size.toNat - 1) / 8 + 1 - bitPos.toNat / 8)
    omega
  have hinside : bitPos.toNat / 8 + count ≤ reportLen.toNat := by
    show _ + ((bitPos.toNat + size.toNat - 1) / 8 + 1 - bitPos.toNat / 8) ≤ _
    omega
  have hshift : (bitPos &&& 0x07).toUInt32.toNat = bitPos.toNat % 8 := by
    rw [UInt16.toNat_toUInt32, UInt16.toNat_and]
    exact Nat.and_two_pow_sub_one_eq_mod _ 3
  rw [bitField_ofLE hbits (by rw [length_reportBytes]; exact hinside), fieldAt_reportBytes hinside,
    ← toNat_multiByteValue _ hcount4]
  unfold unsignedValue
  dsimp only
  rw [hcount, toNat_posStart hsize hfit, UInt32.toNat_and, UInt32.toNat_shiftRight, hshift,
    toNat_mask hsize', Nat.and_two_pow_sub_one_eq_mod, Nat.shiftRight_eq_div_pow,
    Nat.mod_eq_of_lt (by omega : bitPos.toNat % 8 < 32)]
  rfl

/-! ## The value -/

/-- A variable field that ends inside the report is read as its bits, as a two's complement if its
logical minimum is negative. -/
theorem field_value (item : HidUsageItem) (report : ℕ → UInt8) (reportLen : UInt16)
    (hvar : item.descriptorItem.isVariable = true) (hsize : 0 < item.size.toNat)
    (hsize' : item.size.toNat < 32) (hspan : item.startBit.toNat % 8 + item.size.toNat ≤ 32)
    (hfit : item.startBit.toNat + item.size.toNat ≤ 8 * reportLen.toNat) :
    let bits := bitField (ofLE (reportBytes report reportLen.toNat)) item.startBit.toNat
      item.size.toNat
    (item.field report reportLen).value.toInt =
      if item.globalLogicalMinimum < 0 ∧ 2 ^ (item.size.toNat - 1) ≤ bits then
        (bits : ℤ) - 2 ^ item.size.toNat
      else bits := by
  intro bits
  have hbits : (unsignedValue report reportLen item.startBit item.size).toNat = bits :=
    toNat_unsignedValue hsize hsize' hspan hfit
  have hlt : bits < 2 ^ item.size.toNat := bitField_lt _ _ _
  have hpow : 2 ^ item.size.toNat ≤ 2 ^ 31 := Nat.pow_le_pow_right (by omega) (by omega)
  have h1 : (1 : UInt32).toNat = 1 := rfl
  have hs1 : (item.size.toUInt32 - 1).toNat = item.size.toNat - 1 := by
    rw [UInt32.toNat_sub, UInt8.toNat_toUInt32, h1]
    omega
  have hsign : unsignedValue report reportLen item.startBit item.size &&&
      shiftLeft 1 (item.size.toUInt32 - 1) ≠ 0 ↔ 2 ^ (item.size.toNat - 1) ≤ bits := by
    rw [← and_highBit hsize hlt, Ne, ← UInt32.toNat_inj, UInt32.toNat_and, hbits,
      toNat_one_shiftLeft (by omega), hs1]
    rfl
  unfold HidUsageItem.field
  dsimp only
  rw [if_pos hvar]
  dsimp only
  by_cases hneg : item.globalLogicalMinimum < 0 ∧ 2 ^ (item.size.toNat - 1) ≤ bits
  · have hcond : (decide (item.globalLogicalMinimum < 0) &&
        decide (unsignedValue report reportLen item.startBit item.size &&&
          shiftLeft 1 (item.size.toUInt32 - 1) ≠ 0)) = true := by
      rw [Bool.and_eq_true, decide_eq_true_iff, decide_eq_true_iff, hsign]
      exact hneg
    have hsub : (unsignedValue report reportLen item.startBit item.size -
        shiftLeft 1 item.size.toUInt32).toNat = 2 ^ 32 - 2 ^ item.size.toNat + bits := by
      rw [UInt32.toNat_sub, hbits, toNat_one_shiftLeft (by rw [UInt8.toNat_toUInt32]; exact hsize'),
        UInt8.toNat_toUInt32]
      omega
    have hle : 2 ^ item.size.toNat ≤ 2 ^ 32 := hpow.trans (by norm_num)
    rw [if_pos hcond, if_pos hneg, toInt_toInt32, hsub, if_neg (by omega), Nat.cast_add,
      Nat.cast_sub hle]
    push_cast
    ring
  · have hcond : (decide (item.globalLogicalMinimum < 0) &&
        decide (unsignedValue report reportLen item.startBit item.size &&&
          shiftLeft 1 (item.size.toUInt32 - 1) ≠ 0)) ≠ true := by
      rw [Ne, Bool.and_eq_true, decide_eq_true_iff, decide_eq_true_iff, hsign]
      exact hneg
    rw [if_neg hcond, if_neg hneg, toInt_toInt32, hbits, if_pos (by omega)]

/-! ## What is read of the memory -/

theorem multiByteValue_congr {start count : ℕ}
    (h : ∀ i, i < count → report (start + i) = report' (start + i)) :
    multiByteValue report start count = multiByteValue report' start count := by
  unfold multiByteValue
  refine List.foldl_ext _ _ _ ?_
  intro value i hi
  rw [h i (List.mem_range.1 hi)]

/-- The field does not end behind the report. -/
def HidUsageItem.Fits (item : HidUsageItem) (reportLen : UInt16) : Prop :=
  0 < item.size.toNat ∧ item.startBit.toNat + item.size.toNat ≤ 8 * reportLen.toNat

instance (item : HidUsageItem) (reportLen : UInt16) : Decidable (item.Fits reportLen) :=
  inferInstanceAs (Decidable (_ ∧ _))

theorem field_congr {item : HidUsageItem} (h : ∀ i < reportLen.toNat, report i = report' i)
    (hend : item.Fits reportLen ∨ report reportLen.toNat = report' reportLen.toNat) :
    item.field report reportLen = item.field report' reportLen := by
  have hvalue : unsignedValue report reportLen item.startBit item.size =
      unsignedValue report' reportLen item.startBit item.size := by
    unfold unsignedValue
    dsimp only
    rw [multiByteValue_congr]
    intro i hi
    have hle : posEnd item.startBit item.size reportLen ≤ reportLen.toNat := min_le_right _ _
    rcases hend with ⟨hsize, hfit⟩ | hsame
    · rw [toNat_posEnd hsize hfit] at hi
      exact h _ (by omega)
    · rcases Nat.lt_or_ge (posStart item.startBit reportLen + i) reportLen.toNat with hlt | hge
      · exact h _ hlt
      · rw [show posStart item.startBit reportLen + i = reportLen.toNat by omega]
        exact hsame
  unfold HidUsageItem.field
  rw [hvalue]

theorem reportFields_congr {as : List (HidUsageItem × HidGlobals)}
    (h0 : report 0 = report' 0)
    (h : ∀ a ∈ as, a.1.field report reportLen = a.1.field report' reportLen) :
    reportFields as report reportLen = reportFields as report' reportLen := by
  unfold reportFields
  rw [h0]
  refine List.map_congr_left ?_
  intro a ha
  rw [h a (List.mem_of_mem_filter ha)]

/-- What the fields of a report depend on. -/
theorem reportFields_eq {as : List (HidUsageItem × HidGlobals)}
    (h : ∀ i < reportLen.toNat, report i = report' i)
    (hend : report reportLen.toNat = report' reportLen.toNat ∨ ∀ a ∈ as, a.1.Fits reportLen) :
    reportFields as report reportLen = reportFields as report' reportLen := by
  rcases hend with hsame | hfits
  · refine reportFields_congr ?_ fun a _ => field_congr h (Or.inr hsame)
    -- the first byte is in the report, or the byte behind an empty one
    rcases Nat.eq_zero_or_pos reportLen.toNat with hzero | hpos
    · rwa [hzero] at hsame
    · exact h 0 hpos
  · cases as with
    | nil => simp only [reportFields, List.filter_nil, List.map_nil]
    | cons a as' =>
      obtain ⟨hsize, hfit⟩ := hfits a List.mem_cons_self
      exact reportFields_congr (h 0 (by omega)) fun b hb => field_congr h (Or.inl (hfits b hb))

/-- Whatever the descriptor, the parser reads no byte of the memory behind the one that follows the
report, and not that one either if no field of the descriptor ends behind the report. -/
theorem parse_reads {D : Type} (parseUsage : D → HidGlobals → HidField → Option D)
    (descriptor : Bytes) (report report' : ℕ → UInt8) (reportLen : UInt16) (d : D)
    (h : ∀ i < reportLen.toNat, report i = report' i)
    (hend : report reportLen.toNat = report' reportLen.toNat ∨
      ∀ as, Yields usageNext (usageIteratorInit descriptor .input) as →
        ∀ a ∈ as, a.1.Fits reportLen) :
    parseFields parseUsage descriptor report reportLen d =
      parseFields parseUsage descriptor report' reportLen d := by
  rcases parseFields_eq descriptor with ⟨as, has, heq⟩ | ⟨-, hnone⟩
  · rw [heq, heq, reportFields_eq h (hend.imp_right fun hfits => hfits as has)]
  · rw [hnone, hnone]

end Parser

/-- The pad's report of five bytes, in two memories. -/
theorem parse_reads_pad :
    letI := shiftModulo
    parseFields (fun d _ f => some (f.value :: d)) padDescriptor (fun _ => 7) 5 [] =
      parseFields (fun d _ f => some (f.value :: d)) padDescriptor
        (fun i => if i < 5 then 7 else 9) 5 [] := by
  let _ := shiftModulo
  refine parse_reads _ _ _ _ _ _ (by decide) (Or.inr ?_)
  intro as has
  rw [has.unique yields_pad]
  decide

end EdnaDrone
