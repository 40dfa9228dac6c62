import Mathlib.Data.Rat.Floor
import Mathlib.Data.Nat.Log
import Mathlib.Tactic

/-!
# Rounding to a binary floating-point format

A format has `prec` significant bits, the quantum `2 ^ emin` of its subnormal numbers, and the bound
`2 ^ emax` that every finite number stays below. `roundMag` rounds a non-negative rational to the
nearest multiple of the quantum of its binade, ties to even, with an unbounded exponent; whether the
result is finite is decided by comparing it with `2 ^ emax`. Everything is computable on `ℚ`.
-/

namespace Lib

/-! ## Rounding to an integer -/

/-- The nearest integer, ties to even. -/
def roundHalfEven (q : ℚ) : ℤ :=
  if q - ⌊q⌋ < 1 / 2 then ⌊q⌋
  else if 1 / 2 < q - ⌊q⌋ then ⌊q⌋ + 1
  else if ⌊q⌋ % 2 = 0 then ⌊q⌋ else ⌊q⌋ + 1

theorem roundHalfEven_le {q : ℚ} {n : ℤ} (h : q ≤ n) : roundHalfEven q ≤ n := by
  rcases eq_or_lt_of_le (Int.floor_le_iff.2 (by linarith) : ⌊q⌋ ≤ n) with hf | hf
  · have hq : q = n := le_antisymm h (by rw [← hf]; exact Int.floor_le q)
    have : q - ⌊q⌋ < 1 / 2 := by rw [hf, hq]; norm_num
    simp only [roundHalfEven, if_pos this]
    exact hf.le
  · unfold roundHalfEven
    split_ifs <;> omega

theorem le_roundHalfEven {q : ℚ} {n : ℤ} (h : (n : ℚ) ≤ q) : n ≤ roundHalfEven q := by
  have hf : n ≤ ⌊q⌋ := Int.le_floor.2 h
  unfold roundHalfEven
  split_ifs <;> omega

theorem abs_roundHalfEven_sub_le (q : ℚ) : |(roundHalfEven q : ℚ) - q| ≤ 1 / 2 := by
  have h1 := Int.floor_le q
  have h2 := Int.lt_floor_add_one q
  rw [abs_le]
  unfold roundHalfEven
  split_ifs <;> push_cast <;> constructor <;> linarith

theorem roundHalfEven_neg (q : ℚ) : roundHalfEven (-q) = -roundHalfEven q := by
  have h1 := Int.floor_le q
  have h2 := Int.lt_floor_add_one q
  rcases h1.eq_or_lt with hint | hlt
  · -- an integer
    have hfloor : ⌊-q⌋ = -⌊q⌋ := by
      rw [← hint, ← Int.cast_neg, Int.floor_intCast, Int.floor_intCast]
    have hq : q - ⌊q⌋ < 1 / 2 := by
      rw [hint]
      norm_num
    have hq' : -q - ⌊-q⌋ < 1 / 2 := by
      rw [hfloor, Int.cast_neg, hint]
      norm_num
    unfold roundHalfEven
    rw [if_pos hq, if_pos hq', hfloor]
  · have hfloor : ⌊-q⌋ = -⌊q⌋ - 1 := by
      rw [Int.floor_eq_iff]
      push_cast
      constructor <;> linarith
    unfold roundHalfEven
    rw [hfloor]
    push_cast
    split_ifs <;> first | omega | (exfalso; linarith)

/-! ## Binades -/

/-- `⌊log₂ q⌋` of a positive rational. -/
def ilog2 (q : ℚ) : ℤ :=
  let k : ℤ := (Nat.log2 q.num.natAbs : ℤ) - Nat.log2 q.den
  if (2 : ℚ) ^ k ≤ q then k else k - 1

theorem two_pow_log2_le {n : ℕ} (hn : n ≠ 0) : (2 : ℚ) ^ (Nat.log2 n : ℤ) ≤ n := by
  rw [zpow_natCast]
  exact_mod_cast Nat.log2_self_le hn

theorem lt_two_pow_log2 (n : ℕ) : (n : ℚ) < 2 ^ ((Nat.log2 n : ℤ) + 1) := by
  have h : n < 2 ^ (Nat.log2 n + 1) := Nat.lt_log2_self
  rw [show ((Nat.log2 n : ℤ) + 1) = ((Nat.log2 n + 1 : ℕ) : ℤ) by push_cast; rfl, zpow_natCast]
  exact_mod_cast h

/-- A positive rational lies within a factor of two of the quotient of the powers of two below its
numerator and its denominator. -/
theorem ilog2_bounds {q : ℚ} (hq : 0 < q) :
    (2 : ℚ) ^ ((Nat.log2 q.num.natAbs : ℤ) - Nat.log2 q.den - 1) < q ∧
      q < 2 ^ ((Nat.log2 q.num.natAbs : ℤ) - Nat.log2 q.den + 1) := by
  have hn : 0 < q.num := Rat.num_pos.2 hq
  have hd : (0 : ℚ) < q.den := by exact_mod_cast q.den_pos
  have hqd : q * q.den = q.num.natAbs := by
    rw [Rat.mul_den_eq_num, Nat.cast_natAbs, abs_of_pos hn]
  have hn1 := two_pow_log2_le (Int.natAbs_pos.2 hn.ne').ne'
  have hn2 := lt_two_pow_log2 q.num.natAbs
  have hd1 := two_pow_log2_le q.den_pos.ne'
  have hd2 := lt_two_pow_log2 q.den
  have h2 : (2 : ℚ) ≠ 0 := by norm_num
  constructor
  · refine lt_of_mul_lt_mul_right ?_ hd.le
    calc (2 : ℚ) ^ ((Nat.log2 q.num.natAbs : ℤ) - Nat.log2 q.den - 1) * q.den
        < 2 ^ ((Nat.log2 q.num.natAbs : ℤ) - Nat.log2 q.den - 1) * 2 ^ ((Nat.log2 q.den : ℤ) + 1) :=
          mul_lt_mul_of_pos_left hd2 (by positivity)
      _ = 2 ^ (Nat.log2 q.num.natAbs : ℤ) := by rw [← zpow_add₀ h2]; congr 1; ring
      _ ≤ q * q.den := by rw [hqd]; exact hn1
  · refine lt_of_mul_lt_mul_right ?_ hd.le
    calc q * q.den = q.num.natAbs := hqd
      _ < 2 ^ ((Nat.log2 q.num.natAbs : ℤ) + 1) := hn2
      _ = 2 ^ ((Nat.log2 q.num.natAbs : ℤ) - Nat.log2 q.den + 1) * 2 ^ (Nat.log2 q.den : ℤ) := by
          rw [← zpow_add₀ h2]; congr 1; ring
      _ ≤ _ := mul_le_mul_of_nonneg_left hd1 (by positivity)

theorem zpow_ilog2_le {q : ℚ} (hq : 0 < q) : (2 : ℚ) ^ ilog2 q ≤ q := by
  simp only [ilog2]
  split_ifs with h
  · exact h
  · exact (ilog2_bounds hq).1.le

theorem lt_zpow_ilog2 {q : ℚ} (hq : 0 < q) : q < 2 ^ (ilog2 q + 1) := by
  simp only [ilog2]
  split_ifs with h
  · exact (ilog2_bounds hq).2
  · simpa using h

theorem ilog2_le_of_lt {q : ℚ} (hq : 0 < q) {k : ℤ} (h : q < 2 ^ (k + 1)) : ilog2 q ≤ k := by
  have h1 := (zpow_ilog2_le hq).trans_lt h
  have := (zpow_lt_zpow_iff_right₀ (by norm_num : (1 : ℚ) < 2)).1 h1
  omega

theorem le_ilog2_of_le {q : ℚ} (hq : 0 < q) {k : ℤ} (h : (2 : ℚ) ^ k ≤ q) : k ≤ ilog2 q := by
  have h1 := h.trans_lt (lt_zpow_ilog2 hq)
  have := (zpow_lt_zpow_iff_right₀ (by norm_num : (1 : ℚ) < 2)).1 h1
  omega

/-! ## Formats -/

structure FloatFormat where
  /-- The number of significant bits. -/
  prec : ℕ
  /-- The exponent of the smallest quantum. -/
  emin : ℤ
  /-- Finite numbers are below `2 ^ emax`. -/
  emax : ℤ
  prec_pos : 0 < prec

/-- The format of C's `float`. -/
def binary32 : FloatFormat := ⟨24, -149, 128, by norm_num⟩

/-- The format of C's `double`, of Python's `float` and of JavaScript's `Number`. -/
def binary64 : FloatFormat := ⟨53, -1074, 1024, by norm_num⟩

namespace FloatFormat

variable (fmt : FloatFormat)

/-- The exponent of the quantum of the binade that contains `q`. -/
def quantumExp (q : ℚ) : ℤ := max fmt.emin (ilog2 q + 1 - fmt.prec)

/-- The magnitude `q` rounded to nearest, ties to even, with an unbounded exponent. -/
def roundMag (q : ℚ) : ℚ :=
  if q = 0 then 0 else roundHalfEven (q / 2 ^ fmt.quantumExp q) * 2 ^ fmt.quantumExp q

/-- `q` is a multiple `n · 2 ^ e` of an admissible quantum with at most `prec` significant bits. -/
def Representable (q : ℚ) : Prop :=
  ∃ (n : ℕ) (e : ℤ), fmt.emin ≤ e ∧ n ≤ 2 ^ fmt.prec ∧ q = n * 2 ^ e

variable {fmt} {q : ℚ}

theorem roundMag_zero : fmt.roundMag 0 = 0 := by simp [roundMag]

theorem roundMag_of_pos (hq : 0 < q) :
    fmt.roundMag q = roundHalfEven (q / 2 ^ fmt.quantumExp q) * 2 ^ fmt.quantumExp q := by
  simp [roundMag, hq.ne']

theorem roundMag_le_mul (hq : 0 < q) {n : ℤ} (h : q ≤ n * 2 ^ fmt.quantumExp q) :
    fmt.roundMag q ≤ n * 2 ^ fmt.quantumExp q := by
  have hu : (0 : ℚ) < 2 ^ fmt.quantumExp q := by positivity
  rw [roundMag_of_pos hq]
  have := roundHalfEven_le ((div_le_iff₀ hu).2 h)
  exact mul_le_mul_of_nonneg_right (by exact_mod_cast this) hu.le

theorem mul_le_roundMag (hq : 0 < q) {n : ℤ} (h : n * 2 ^ fmt.quantumExp q ≤ q) :
    n * 2 ^ fmt.quantumExp q ≤ fmt.roundMag q := by
  have hu : (0 : ℚ) < 2 ^ fmt.quantumExp q := by positivity
  rw [roundMag_of_pos hq]
  have := le_roundHalfEven ((le_div_iff₀ hu).2 h)
  exact mul_le_mul_of_nonneg_right (by exact_mod_cast this) hu.le

theorem roundMag_nonneg (hq : 0 ≤ q) : 0 ≤ fmt.roundMag q := by
  rcases hq.eq_or_lt with rfl | hq
  · rw [roundMag_zero]
  · have := @mul_le_roundMag fmt q hq 0 (by simpa using hq.le)
    simpa using this

theorem two_zpow_eq_mul {k e : ℤ} (h : e ≤ k) : (2 : ℚ) ^ k = ((2 ^ (k - e).toNat : ℤ) : ℚ) * 2 ^ e := by
  have h2 : (2 : ℚ) ≠ 0 := by norm_num
  push_cast
  rw [← zpow_natCast, ← zpow_add₀ h2]
  congr 1
  omega

/-- Rounding does not cross a power of two from below. -/
theorem roundMag_le_two_zpow {k : ℤ} (hk : fmt.emin ≤ k) (hq : 0 ≤ q) (h : q ≤ 2 ^ k) :
    fmt.roundMag q ≤ 2 ^ k := by
  rcases hq.eq_or_lt with rfl | hq
  · rw [roundMag_zero]; positivity
  have hp := fmt.prec_pos
  have hlog : ilog2 q ≤ k := ilog2_le_of_lt hq (h.trans_lt (zpow_lt_zpow_right₀ (by norm_num) (by omega)))
  have he : fmt.quantumExp q ≤ k := max_le hk (by omega)
  rw [two_zpow_eq_mul he] at h ⊢
  exact roundMag_le_mul hq h

/-- Rounding does not cross a power of two from above. -/
theorem two_zpow_le_roundMag {k : ℤ} (hk : fmt.emin ≤ k) (h : (2 : ℚ) ^ k ≤ q) :
    (2 : ℚ) ^ k ≤ fmt.roundMag q := by
  have hq : 0 < q := lt_of_lt_of_le (by positivity) h
  have hp := fmt.prec_pos
  by_cases he : fmt.quantumExp q ≤ k
  · rw [two_zpow_eq_mul he] at h ⊢
    exact mul_le_roundMag hq h
  · -- the quantum is above `2 ^ k`, so `q` is at least one quantum
    have heq : fmt.quantumExp q = ilog2 q + 1 - fmt.prec := by
      unfold quantumExp at he ⊢; omega
    have h1 : ((1 : ℤ) : ℚ) * 2 ^ fmt.quantumExp q ≤ q := by
      rw [Int.cast_one, one_mul, heq]
      exact (zpow_le_zpow_right₀ (by norm_num) (by omega)).trans (zpow_ilog2_le hq)
    have h2 := mul_le_roundMag hq h1
    rw [Int.cast_one, one_mul] at h2
    exact (zpow_le_zpow_right₀ (by norm_num) (by omega)).trans h2

theorem representable_roundMag (hq : 0 ≤ q) : fmt.Representable (fmt.roundMag q) := by
  rcases hq.eq_or_lt with rfl | hq
  · exact ⟨0, fmt.emin, le_rfl, Nat.zero_le _, by simp [roundMag_zero]⟩
  have hu : (0 : ℚ) < 2 ^ fmt.quantumExp q := by positivity
  have h0 : 0 ≤ roundHalfEven (q / 2 ^ fmt.quantumExp q) :=
    le_roundHalfEven (by simpa using div_nonneg hq.le hu.le)
  have hle : roundHalfEven (q / 2 ^ fmt.quantumExp q) ≤ ((2 ^ fmt.prec : ℕ) : ℤ) := by
    refine roundHalfEven_le ((div_le_iff₀ hu).2 ?_)
    have h2 : (2 : ℚ) ≠ 0 := by norm_num
    calc q ≤ 2 ^ (ilog2 q + 1) := (lt_zpow_ilog2 hq).le
      _ ≤ 2 ^ ((fmt.prec : ℤ) + fmt.quantumExp q) := by
          refine zpow_le_zpow_right₀ (by norm_num) ?_
          have : ilog2 q + 1 - fmt.prec ≤ fmt.quantumExp q := le_max_right _ _
          omega
      _ = _ := by rw [zpow_add₀ h2, zpow_natCast]; push_cast; rfl
  refine ⟨(roundHalfEven (q / 2 ^ fmt.quantumExp q)).toNat, fmt.quantumExp q, le_max_left _ _,
    by omega, ?_⟩
  rw [roundMag_of_pos hq]
  congr 1
  exact_mod_cast (Int.toNat_of_nonneg h0).symm

/-- A multiple of an admissible quantum with at most `prec` significant bits is also one of the
quantum of its binade. -/
theorem Representable.exists_mul_quantum (hq : 0 < q) (h : fmt.Representable q) :
    ∃ m : ℤ, q = m * 2 ^ fmt.quantumExp q := by
  obtain ⟨n, e, he, hn, hqe⟩ := h
  have hp := fmt.prec_pos
  by_cases hle : fmt.quantumExp q ≤ e
  · refine ⟨n * 2 ^ (e - fmt.quantumExp q).toNat, ?_⟩
    rw [Int.cast_mul, mul_assoc, ← two_zpow_eq_mul hle]
    exact_mod_cast hqe
  · -- the significand is then the power of two that starts the next binade
    have heq : fmt.quantumExp q = ilog2 q + 1 - fmt.prec := by
      unfold quantumExp at hle ⊢; omega
    have hle' : q ≤ 2 ^ ((fmt.prec : ℤ) + e) := by
      rw [zpow_add₀ (by norm_num : (2 : ℚ) ≠ 0), zpow_natCast, hqe]
      exact mul_le_mul_of_nonneg_right (by exact_mod_cast hn) (by positivity)
    have hlog := (zpow_le_zpow_iff_right₀ (by norm_num : (1 : ℚ) < 2)).1
      ((zpow_ilog2_le hq).trans hle')
    have hlog' : ilog2 q = fmt.prec + e := by omega
    have hpow : q = 2 ^ ((fmt.prec : ℤ) + e) := le_antisymm hle' (hlog' ▸ zpow_ilog2_le hq)
    exact ⟨_, hpow.trans (two_zpow_eq_mul (by omega))⟩

theorem Representable.roundMag_eq (hq : 0 ≤ q) (h : fmt.Representable q) : fmt.roundMag q = q := by
  rcases hq.eq_or_lt with rfl | hq
  · exact roundMag_zero
  obtain ⟨m, hm⟩ := h.exists_mul_quantum hq
  have h1 := roundMag_le_mul hq hm.le
  have h2 := mul_le_roundMag hq hm.ge
  rw [← hm] at h1 h2
  exact le_antisymm h1 h2

theorem quantumExp_mono {r : ℚ} (hq : 0 < q) (h : q ≤ r) : fmt.quantumExp q ≤ fmt.quantumExp r := by
  have hlog : ilog2 q ≤ ilog2 r := ilog2_le_of_lt hq (h.trans_lt (lt_zpow_ilog2 (hq.trans_le h)))
  unfold quantumExp
  omega

/-- Rounding does not cross a representable magnitude. -/
theorem Representable.roundMag_le {r : ℚ} (hr : fmt.Representable r) (hq : 0 ≤ q) (h : q ≤ r) :
    fmt.roundMag q ≤ r := by
  rcases hq.eq_or_lt with rfl | hq
  · rwa [roundMag_zero]
  obtain ⟨m, hm⟩ := hr.exists_mul_quantum (hq.trans_le h)
  have hmul : r = ((m * 2 ^ (fmt.quantumExp r - fmt.quantumExp q).toNat : ℤ) : ℚ) *
      2 ^ fmt.quantumExp q := by
    rw [Int.cast_mul, mul_assoc, ← two_zpow_eq_mul (quantumExp_mono hq h)]
    exact hm
  rw [hmul] at h ⊢
  exact roundMag_le_mul hq h

theorem representable_abs_mul {n e : ℤ} (he : fmt.emin ≤ e)
    (h : |(n : ℚ) * 2 ^ e| ≤ 2 ^ (e + fmt.prec)) : fmt.Representable |(n : ℚ) * 2 ^ e| := by
  have h2 : (0 : ℚ) < 2 ^ e := by positivity
  have habs : |(n : ℚ) * 2 ^ e| = (n.natAbs : ℚ) * 2 ^ e := by
    rw [abs_mul, abs_of_pos h2, Nat.cast_natAbs, Int.cast_abs]
  rw [habs] at h ⊢
  rw [zpow_add₀ two_ne_zero, mul_comm (2 ^ e : ℚ), zpow_natCast, mul_le_mul_iff_left₀ h2] at h
  exact ⟨n.natAbs, e, he, by exact_mod_cast h, rfl⟩

theorem abs_roundMag_sub_le {k : ℤ} (hk : fmt.emin + fmt.prec ≤ k + 1) (hq : 0 ≤ q)
    (h : q ≤ 2 ^ k) : |fmt.roundMag q - q| ≤ 2 ^ (k - fmt.prec) := by
  rcases hq.eq_or_lt with rfl | hq
  · rw [roundMag_zero, sub_zero, abs_zero]
    positivity
  have hlog : ilog2 q ≤ k :=
    ilog2_le_of_lt hq (h.trans_lt (zpow_lt_zpow_right₀ (by norm_num) (by omega)))
  have he : fmt.quantumExp q ≤ k - fmt.prec + 1 := by
    unfold quantumExp
    omega
  have hu : (0 : ℚ) < 2 ^ fmt.quantumExp q := by positivity
  have hsub : fmt.roundMag q - q =
      (roundHalfEven (q / 2 ^ fmt.quantumExp q) - q / 2 ^ fmt.quantumExp q) *
        2 ^ fmt.quantumExp q := by
    rw [roundMag_of_pos hq, sub_mul, div_mul_cancel₀ _ hu.ne']
  have hle : (2 : ℚ) ^ fmt.quantumExp q ≤ 2 ^ (k - fmt.prec) * 2 := by
    rw [← zpow_add_one₀ two_ne_zero]
    exact zpow_le_zpow_right₀ (by norm_num) he
  have herr := abs_roundHalfEven_sub_le (q / 2 ^ fmt.quantumExp q)
  rw [hsub, abs_mul, abs_of_pos hu]
  nlinarith

end FloatFormat

end Lib
