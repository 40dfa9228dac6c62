import EdnaDrone.Proofs.HidFieldProofs

/-!
# The normalization of an axis

The arithmetic of `uni_hid_parser_process_axis` wraps around. It does not as long as a field has no more
than `2 ^ 21` values, and then the logical range is mapped to `-512 .. 511`, in order.
-/

namespace EdnaDrone

/-- The position of a value in the range `-512 .. 511`. -/
def axisPosition (n offset : ℤ) : ℤ := ((offset - n / 2) * 1024).tdiv n

theorem axisPosition_mono {n a b : ℤ} (hn : 0 < n) (h : a ≤ b) : axisPosition n a ≤ axisPosition n b := by
  unfold axisPosition
  exact Int.tdiv_le_tdiv hn (by omega)

theorem axisPosition_bounds {n a : ℤ} (hn : 0 < n) (h0 : 0 ≤ a) (h : a < n) :
    -512 ≤ axisPosition n a ∧ axisPosition n a ≤ 511 := by
  unfold axisPosition
  constructor
  · have hle : -512 * n ≤ (a - n / 2) * 1024 := by omega
    have hdiv := Int.tdiv_le_tdiv hn hle
    rwa [Int.mul_tdiv_cancel _ hn.ne'] at hdiv
  · have hlt : (a - n / 2) * 1024 < 512 * n := by omega
    rcases lt_or_ge ((a - n / 2) * 1024) 0 with hneg | hnonneg
    · have hdiv := Int.tdiv_le_tdiv hn hneg.le
      rw [Int.zero_tdiv] at hdiv
      omega
    · rw [Int.tdiv_eq_ediv_of_nonneg hnonneg]
      have hquot := Int.ediv_lt_of_lt_mul hn hlt
      omega

/-- A result that fits in 32 bits is not wrapped. -/
theorem bmod_of_small {z : ℤ} (h : -2 ^ 31 ≤ z) (h' : z < 2 ^ 31) : z.bmod (2 ^ 32) = z :=
  Int.bmod_eq_of_le_mul_two (by push_cast; omega) (by push_cast; omega)

section Parser

variable [WideShift] {g : HidGlobals} {n : ℤ} {v w : Int32}

/-- An axis with `n` values, few enough for the arithmetic. -/
structure HidGlobals.IsAxis (g : HidGlobals) (n : ℤ) : Prop where
  count : n = g.top.toInt - g.logicalMinimum.toInt + 1
  pos : 0 < n
  le : n ≤ 2 ^ 21

/-- A value in the logical range. -/
def HidGlobals.Contains (g : HidGlobals) (v : Int32) : Prop :=
  g.logicalMinimum.toInt ≤ v.toInt ∧ v.toInt ≤ g.top.toInt

theorem isAxis_of_ne (hmax : g.logicalMaximum ≠ -1)
    (hcount : n = g.logicalMaximum.toInt - g.logicalMinimum.toInt + 1) (hpos : 0 < n)
    (hle : n ≤ 2 ^ 21) : g.IsAxis n := by
  have htop : g.top = g.logicalMaximum := if_neg hmax
  exact ⟨htop ▸ hcount, hpos, hle⟩

/-- An axis with the maximum -1 has all the values of its bits. -/
theorem isAxis_unsigned (hmax : g.logicalMaximum = -1) (hmin : g.logicalMinimum = 0)
    (hsize : g.reportSize.toNat ≤ 21) : g.IsAxis (2 ^ g.reportSize.toNat) := by
  have h0 : (0 : Int32).toInt = 0 := rfl
  have h1 : (1 : Int32).toInt = 1 := rfl
  have hpos : (0 : ℤ) < 2 ^ g.reportSize.toNat := by positivity
  have hpow : 2 ^ g.reportSize.toNat ≤ 2 ^ 21 := Nat.pow_le_pow_right (by omega) hsize
  have hpow' : (2 : ℤ) ^ g.reportSize.toNat ≤ 2 ^ 21 := by exact_mod_cast hpow
  have hone : (shiftLeft 1 g.reportSize.toUInt32).toInt32.toInt = 2 ^ g.reportSize.toNat := by
    rw [toInt_toInt32, toNat_one_shiftLeft (by rw [UInt8.toNat_toUInt32]; omega),
      UInt8.toNat_toUInt32, if_pos (by omega)]
    push_cast
    rfl
  have htop : g.top.toInt = 2 ^ g.reportSize.toNat - 1 := by
    unfold HidGlobals.top
    rw [if_pos hmax, Int32.toInt_sub, hone, h1]
    exact bmod_of_small (by omega) (by omega)
  refine ⟨?_, hpos, hpow'⟩
  rw [htop, hmin, h0]
  ring

theorem HidGlobals.IsAxis.range (h : g.IsAxis n) : g.range.toInt = n := by
  have h1 : (1 : Int32).toInt = 1 := rfl
  have hpos := h.pos
  have hle := h.le
  unfold HidGlobals.range
  rw [Int32.toInt_add, Int32.toInt_sub, Int.bmod_add_bmod, h1, ← h.count]
  exact bmod_of_small (by omega) (by omega)

theorem HidGlobals.IsAxis.process (h : g.IsAxis n) (hv : g.Contains v) :
    ∃ x, processAxis g v = some x ∧ x.toInt = axisPosition n (v.toInt - g.logicalMinimum.toInt) := by
  obtain ⟨hlow, hhigh⟩ := hv
  have hcount := h.count
  have hpos := h.pos
  have hle := h.le
  have h2 : (2 : Int32).toInt = 2 := rfl
  have hscale : axisNormalizeRange.toInt = 1024 := rfl
  have hbounds := axisPosition_bounds (a := v.toInt - g.logicalMinimum.toInt) hpos (by omega) (by omega)
  have hzero : g.range ≠ 0 := by
    intro hz
    have hrange := h.range
    rw [hz] at hrange
    exact hpos.ne hrange
  have hhalf : (g.range / 2).toInt = n / 2 := by
    rw [Int32.toInt_div, h.range, h2, Int.tdiv_eq_ediv_of_nonneg hpos.le]
    exact bmod_of_small (by omega) (by omega)
  have hcentered : (v - g.range / 2 - g.logicalMinimum).toInt =
      v.toInt - g.logicalMinimum.toInt - n / 2 := by
    rw [Int32.toInt_sub, Int32.toInt_sub, Int.bmod_sub_bmod, hhalf,
      bmod_of_small (by omega) (by omega)]
    ring
  have hscaled : ((v - g.range / 2 - g.logicalMinimum) * axisNormalizeRange).toInt =
      (v.toInt - g.logicalMinimum.toInt - n / 2) * 1024 := by
    rw [Int32.toInt_mul, hcentered, hscale]
    exact bmod_of_small (by omega) (by omega)
  refine ⟨_, if_neg hzero, ?_⟩
  rw [Int32.toInt_div, hscaled, h.range]
  unfold axisPosition at hbounds ⊢
  exact bmod_of_small (by omega) (by omega)

/-- The values of a field with at most `2 ^ 21` of them are mapped to `-512 .. 511`, in order, and the
parser goes on. -/
theorem process_axis_in_order (g : HidGlobals) (n : ℤ) (h : g.IsAxis n) (v w : Int32)
    (hv : g.Contains v) (hw : g.Contains w) (hle : v ≤ w) :
    ∃ x y, processAxis g v = some x ∧ processAxis g w = some y ∧ x ≤ y ∧
      -512 ≤ x.toInt ∧ y.toInt ≤ 511 := by
  obtain ⟨x, hx, hxval⟩ := h.process hv
  obtain ⟨y, hy, hyval⟩ := h.process hw
  obtain ⟨hvlow, hvhigh⟩ := hv
  obtain ⟨hwlow, hwhigh⟩ := hw
  have hcount := h.count
  have hxb := axisPosition_bounds (a := v.toInt - g.logicalMinimum.toInt) h.pos (by omega) (by omega)
  have hyb := axisPosition_bounds (a := w.toInt - g.logicalMinimum.toInt) h.pos (by omega) (by omega)
  have hvw := Int32.le_iff_toInt_le.1 hle
  have hmono := axisPosition_mono (n := n) (a := v.toInt - g.logicalMinimum.toInt)
    (b := w.toInt - g.logicalMinimum.toInt) h.pos (by omega)
  refine ⟨x, y, hx, hy, Int32.le_iff_toInt_le.2 ?_, ?_, ?_⟩
  · rw [hxval, hyval]
    exact hmono
  · rw [hxval]
    exact hxb.1
  · rw [hyval]
    exact hyb.2

end Parser

/-- A byte whose maximum is given as -1. -/
theorem process_axis_in_order_byte :
    letI := shiftModulo
    ∃ x y, processAxis ⟨0, -1, 1, 8, 1, 1⟩ 0 = some x ∧ processAxis ⟨0, -1, 1, 8, 1, 1⟩ 255 = some y ∧
      x ≤ y ∧ -512 ≤ x.toInt ∧ y.toInt ≤ 511 := by
  let _ := shiftModulo
  exact process_axis_in_order _ 256 (isAxis_unsigned rfl rfl (by decide)) 0 255
    ⟨by decide, by decide⟩ ⟨by decide, by decide⟩ (by decide)

end EdnaDrone
