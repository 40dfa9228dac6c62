import EdnaDrone.Lib.Rounding
import Mathlib.Order.WithBot

/-!
# Floating-point numbers

`Flt fmt` is the type of the numbers of a binary format: NaN, two infinities, and signed finite
numbers whose magnitude carries the proof that the format can represent it (so the two zeros differ
in their sign only). Arithmetic is that of IEEE 754 with rounding to nearest even. A comparison with
NaN is false.

`Bounded k x` says that `x` is finite with magnitude at most `2 ^ k`; its closure rules bound the
result of a chain of operations without computing any rounding.
-/

namespace Lib

/-- The magnitudes of the finite numbers of a format. -/
abbrev FloatFormat.Mag (fmt : FloatFormat) : Type :=
  { q : ℚ // 0 ≤ q ∧ q < 2 ^ fmt.emax ∧ fmt.Representable q }

inductive Flt (fmt : FloatFormat) where
  | nan
  /-- An infinity with its sign (`true` is negative). -/
  | inf (neg : Bool)
  /-- A finite number with its sign and magnitude. -/
  | fin (neg : Bool) (mag : fmt.Mag)
  deriving DecidableEq

namespace Flt

variable {fmt : FloatFormat}

/-- The rational with sign `neg` and magnitude `q`. -/
def signed (neg : Bool) (q : ℚ) : ℚ := if neg then -q else q

/-- The value of a finite number (and `0` for the others). -/
def val : Flt fmt → ℚ
  | fin s a => signed s a
  | _ => 0

/-- The number nearest to the magnitude `|q|` with sign `neg`; an infinity when it overflows. -/
def ofSign (neg : Bool) (q : ℚ) : Flt fmt :=
  if h : fmt.roundMag |q| < 2 ^ fmt.emax then
    fin neg ⟨fmt.roundMag |q|, FloatFormat.roundMag_nonneg (abs_nonneg q), h,
      FloatFormat.representable_roundMag (abs_nonneg q)⟩
  else inf neg

def ofRat (q : ℚ) : Flt fmt := ofSign (decide (q < 0)) q

/-- The position of a number on the extended line; NaN has none. -/
def key : Flt fmt → Option (WithBot (WithTop ℚ))
  | nan => none
  | inf true => some ⊥
  | inf false => some ((⊤ : WithTop ℚ) : WithBot (WithTop ℚ))
  | fin s a => some ((signed s a : WithTop ℚ) : WithBot (WithTop ℚ))

/-! ## Operations -/

instance : Neg (Flt fmt) where
  neg
    | nan => nan
    | inf s => inf !s
    | fin s a => fin (!s) a

instance : Add (Flt fmt) where
  add
    | nan, _ => nan
    | _, nan => nan
    | inf s, inf t => if s = t then inf s else nan
    | inf s, fin _ _ => inf s
    | fin _ _, inf t => inf t
    | fin s a, fin t b =>
      -- an exact zero is `+0` unless both operands are negative
      if signed s a + signed t b = 0 then ofSign (s && t) 0 else ofRat (signed s a + signed t b)

instance : Sub (Flt fmt) where
  sub x y := x + -y

instance : Mul (Flt fmt) where
  mul
    | nan, _ => nan
    | _, nan => nan
    | inf s, inf t => inf (s ^^ t)
    | inf s, fin t b => if b.1 = 0 then nan else inf (s ^^ t)
    | fin s a, inf t => if a.1 = 0 then nan else inf (s ^^ t)
    | fin s a, fin t b => ofSign (s ^^ t) (a * b)

instance : Div (Flt fmt) where
  div
    | nan, _ => nan
    | _, nan => nan
    | inf _, inf _ => nan
    | inf s, fin t _ => inf (s ^^ t)
    | fin s _, inf t => ofSign (s ^^ t) 0
    | fin s a, fin t b =>
      if b.1 = 0 then (if a.1 = 0 then nan else inf (s ^^ t)) else ofSign (s ^^ t) (a / b)

instance : LT (Flt fmt) where
  lt x y := match x.key, y.key with
    | some a, some b => a < b
    | _, _ => False

instance : LE (Flt fmt) where
  le x y := match x.key, y.key with
    | some a, some b => a ≤ b
    | _, _ => False

theorem lt_def (x y : Flt fmt) : x < y ↔ ∃ a b, x.key = some a ∧ y.key = some b ∧ a < b := by
  show (match x.key, y.key with | some a, some b => a < b | _, _ => False) ↔ _
  rcases x.key with _ | a <;> rcases y.key with _ | b <;> simp

theorem le_def (x y : Flt fmt) : x ≤ y ↔ ∃ a b, x.key = some a ∧ y.key = some b ∧ a ≤ b := by
  show (match x.key, y.key with | some a, some b => a ≤ b | _, _ => False) ↔ _
  rcases x.key with _ | a <;> rcases y.key with _ | b <;> simp

instance : DecidableLT (Flt fmt) := fun x y =>
  match hx : x.key, hy : y.key with
  | some a, some b =>
    decidable_of_iff (a < b) (by rw [lt_def, hx, hy]; simp)
  | none, _ => isFalse (by rw [lt_def, hx]; simp)
  | some _, none => isFalse (by rw [lt_def, hy]; simp)

instance : DecidableLE (Flt fmt) := fun x y =>
  match hx : x.key, hy : y.key with
  | some a, some b =>
    decidable_of_iff (a ≤ b) (by rw [le_def, hx, hy]; simp)
  | none, _ => isFalse (by rw [le_def, hx]; simp)
  | some _, none => isFalse (by rw [le_def, hy]; simp)

/-- Numeric equality: false on NaN, and the two zeros are equal. -/
def numEq (x y : Flt fmt) : Bool := x.key.isSome && x.key == y.key

def abs : Flt fmt → Flt fmt
  | nan => nan
  | inf _ => inf false
  | fin _ a => fin false a

/-- Conversion to an integer, truncating toward zero. C leaves the conversion of a NaN or an
infinity undefined; here it yields `0`. -/
def trunc (x : Flt fmt) : ℤ := if 0 ≤ x.val then ⌊x.val⌋ else ⌈x.val⌉

/-! ## Comparisons -/

def IsNum (x : Flt fmt) : Prop := x ≠ nan

def IsFinite : Flt fmt → Prop
  | fin _ _ => True
  | _ => False

instance : DecidablePred (IsFinite : Flt fmt → Prop) := fun x => by
  cases x <;> unfold IsFinite <;> infer_instance

theorem IsFinite.exists_fin {x : Flt fmt} (h : x.IsFinite) : ∃ s a, x = fin s a := by
  rcases x with _ | _ | ⟨s, a⟩
  · exact h.elim
  · exact h.elim
  · exact ⟨s, a, rfl⟩

theorem IsFinite.isNum {x : Flt fmt} (h : x.IsFinite) : x.IsNum := by
  rintro rfl; exact h

theorem IsNum.exists_key {x : Flt fmt} (h : x.IsNum) : ∃ a, x.key = some a := by
  rcases x with _ | (_ | _) | _
  · exact absurd rfl h
  all_goals exact ⟨_, rfl⟩

theorem numEq_iff {x y : Flt fmt} (hx : x.IsNum) (hy : y.IsNum) (hf : ¬ (x.IsFinite ∧ y.IsFinite)) :
    numEq x y = true ↔ x = y := by
  rcases x with _ | s | ⟨s, a⟩
  · exact absurd rfl hx
  · rcases y with _ | t | _
    · exact absurd rfl hy
    · cases s <;> cases t <;> simp [numEq, key]
    · cases s <;> simp [numEq, key]
  · rcases y with _ | t | _
    · exact absurd rfl hy
    · cases t <;> simp [numEq, key]
    · exact absurd ⟨trivial, trivial⟩ hf

/-- Between two numbers that are not NaN, one comparison or the opposite one holds. -/
theorem IsNum.le_of_not_lt {x y : Flt fmt} (hx : x.IsNum) (hy : y.IsNum) (h : ¬ x < y) : y ≤ x := by
  obtain ⟨a, ha⟩ := hx.exists_key
  obtain ⟨b, hb⟩ := hy.exists_key
  rw [le_def]
  refine ⟨b, a, hb, ha, not_lt.1 fun hab => h ?_⟩
  rw [lt_def]
  exact ⟨a, b, ha, hb, hab⟩

theorem le_refl_of_isNum {x : Flt fmt} (hx : x.IsNum) : x ≤ x := by
  obtain ⟨a, ha⟩ := hx.exists_key
  rw [le_def]
  exact ⟨a, a, ha, ha, le_rfl⟩

theorem not_lt_nan (x : Flt fmt) : ¬ x < nan := by
  rw [lt_def]
  rintro ⟨-, b, -, hb, -⟩
  cases hb

theorem not_nan_lt (x : Flt fmt) : ¬ nan < x := by
  rw [lt_def]
  rintro ⟨a, -, ha, -⟩
  cases ha

protected theorem le_trans {x y z : Flt fmt} (h1 : x ≤ y) (h2 : y ≤ z) : x ≤ z := by
  obtain ⟨a, b, ha, hb, hab⟩ := (le_def x y).1 h1
  obtain ⟨b', c, hb', hc, hbc⟩ := (le_def y z).1 h2
  obtain rfl : b = b' := Option.some.inj (hb ▸ hb')
  exact (le_def x z).2 ⟨a, c, ha, hc, hab.trans hbc⟩

protected theorem le_of_lt {x y : Flt fmt} (h : x < y) : x ≤ y := by
  obtain ⟨a, b, ha, hb, hab⟩ := (lt_def x y).1 h
  exact (le_def x y).2 ⟨a, b, ha, hb, hab.le⟩

theorem isNum_of_le {x y : Flt fmt} (h : x ≤ y) : x.IsNum ∧ y.IsNum := by
  obtain ⟨a, b, ha, hb, -⟩ := (le_def x y).1 h
  constructor
  · rintro rfl; cases ha
  · rintro rfl; cases hb

@[simp] theorem le_fin_iff {s t : Bool} {a b : fmt.Mag} :
    (fin s a : Flt fmt) ≤ fin t b ↔ signed s a ≤ signed t b := by
  rw [le_def]
  simp [key]

@[simp] theorem lt_fin_iff {s t : Bool} {a b : fmt.Mag} :
    (fin s a : Flt fmt) < fin t b ↔ signed s a < signed t b := by
  rw [lt_def]
  simp [key]

theorem IsFinite.of_between {x lo hi : Flt fmt} (hlo : lo.IsFinite) (hhi : hi.IsFinite)
    (h1 : lo ≤ x) (h2 : x ≤ hi) : x.IsFinite := by
  obtain ⟨s, a, rfl⟩ := hlo.exists_fin
  obtain ⟨t, b, rfl⟩ := hhi.exists_fin
  rcases x with _ | (_ | _) | _
  · exact absurd rfl (isNum_of_le h1).2
  · simp [le_def, key] at h2
  · simp [le_def, key] at h1
  · trivial

/-! ## Where NaN comes from -/

theorem ofSign_isNum (s : Bool) (q : ℚ) : (ofSign s q : Flt fmt).IsNum := by
  unfold ofSign IsNum
  split_ifs <;> simp

theorem IsNum.add_finite {x y : Flt fmt} (hx : x.IsNum) (hy : y.IsFinite) : (x + y).IsNum := by
  obtain ⟨t, b, rfl⟩ := hy.exists_fin
  rcases x with _ | s | ⟨s, a⟩
  · exact absurd rfl hx
  · show (inf s : Flt fmt) ≠ nan
    simp
  · show (if signed s a + signed t b = 0 then ofSign (s && t) 0
      else ofRat (signed s a + signed t b) : Flt fmt).IsNum
    split_ifs
    · exact ofSign_isNum _ _
    · exact ofSign_isNum _ _

theorem IsFinite.neg {x : Flt fmt} (hx : x.IsFinite) : (-x).IsFinite := by
  obtain ⟨s, a, rfl⟩ := hx.exists_fin
  trivial

theorem IsNum.sub_finite {x y : Flt fmt} (hx : x.IsNum) (hy : y.IsFinite) : (x - y).IsNum :=
  hx.add_finite hy.neg

theorem IsFinite.mul_isNum {x y : Flt fmt} (hx : x.IsFinite) (hy : y.IsFinite) : (x * y).IsNum := by
  obtain ⟨s, a, rfl⟩ := hx.exists_fin
  obtain ⟨t, b, rfl⟩ := hy.exists_fin
  exact ofSign_isNum _ _

/-- A sum of two numbers is a NaN exactly when they are infinities of opposite signs. -/
theorem add_isNum_iff {x y : Flt fmt} (hx : x.IsNum) (hy : y.IsNum) :
    (x + y).IsNum ↔ ∀ s, x = inf s → y ≠ inf !s := by
  constructor
  · rintro h s rfl rfl
    apply h
    show (if s = !s then inf s else nan : Flt fmt) = nan
    cases s <;> rfl
  intro h
  rcases y with _ | t | ⟨t, b⟩
  · exact absurd rfl hy
  · rcases x with _ | s | ⟨s, a⟩
    · exact absurd rfl hx
    · have hst : s = t := by
        have := h s rfl
        cases s <;> cases t <;> simp_all
      show (if s = t then inf s else nan : Flt fmt) ≠ nan
      simp [hst]
    · show (inf t : Flt fmt) ≠ nan
      simp
  · exact hx.add_finite trivial

/-! ## Bounded numbers -/

def Bounded (k : ℤ) : Flt fmt → Prop
  | fin _ a => (a : ℚ) ≤ 2 ^ k
  | _ => False

instance (k : ℤ) : DecidablePred (Bounded k : Flt fmt → Prop) := fun x => by
  cases x <;> unfold Bounded <;> infer_instance

theorem Bounded.isFinite {k : ℤ} {x : Flt fmt} (h : Bounded k x) : x.IsFinite := by
  rcases x with _ | _ | _
  · exact h
  · exact h
  · trivial

theorem Bounded.exists_fin {k : ℤ} {x : Flt fmt} (h : Bounded k x) : ∃ s a, x = fin s a :=
  h.isFinite.exists_fin

theorem Bounded.mono {j k : ℤ} {x : Flt fmt} (h : Bounded j x) (hjk : j ≤ k) : Bounded k x := by
  obtain ⟨s, a, rfl⟩ := h.exists_fin
  · exact le_trans (show (a : ℚ) ≤ 2 ^ j from h) (zpow_le_zpow_right₀ (by norm_num) hjk)

theorem abs_signed (s : Bool) (q : ℚ) : |signed s q| = |q| := by
  cases s <;> simp [signed]

theorem signed_not (s : Bool) (q : ℚ) : signed (!s) q = -signed s q := by
  cases s <;> simp [signed]

theorem Bounded.abs_val {k : ℤ} {x : Flt fmt} (h : Bounded k x) : |x.val| ≤ 2 ^ k := by
  obtain ⟨s, a, rfl⟩ := h.exists_fin
  · show |signed s a| ≤ 2 ^ k
    rw [abs_signed, abs_of_nonneg a.2.1]
    exact h

theorem bounded_ofSign {k : ℤ} (hk : fmt.emin ≤ k) (hk' : k < fmt.emax) {s : Bool} {q : ℚ}
    (h : |q| ≤ 2 ^ k) : Bounded k (ofSign s q : Flt fmt) := by
  have hr := FloatFormat.roundMag_le_two_zpow hk (abs_nonneg q) h
  have hlt : fmt.roundMag |q| < 2 ^ fmt.emax :=
    hr.trans_lt (zpow_lt_zpow_right₀ (by norm_num) hk')
  simp only [ofSign, dif_pos hlt]
  exact hr

theorem bounded_ofRat {k : ℤ} (hk : fmt.emin ≤ k) (hk' : k < fmt.emax) {q : ℚ}
    (h : |q| ≤ 2 ^ k) : Bounded k (ofRat q : Flt fmt) := bounded_ofSign hk hk' h

theorem Bounded.neg {k : ℤ} {x : Flt fmt} (h : Bounded k x) : Bounded k (-x) := by
  rcases x with _ | _ | _
  · exact h
  · exact h
  · exact h

theorem Bounded.add {k : ℤ} (hk : fmt.emin ≤ k + 1) (hk' : k + 1 < fmt.emax) {x y : Flt fmt}
    (hx : Bounded k x) (hy : Bounded k y) : Bounded (k + 1) (x + y) := by
  have hs := (abs_add_le x.val y.val).trans (add_le_add hx.abs_val hy.abs_val)
  rw [← two_mul, ← zpow_one_add₀ (by norm_num : (2 : ℚ) ≠ 0), add_comm 1 k] at hs
  obtain ⟨s, a, rfl⟩ := hx.exists_fin
  obtain ⟨t, b, rfl⟩ := hy.exists_fin
  show Bounded (k + 1) (if signed s a + signed t b = 0 then ofSign (s && t) 0
    else ofRat (signed s a + signed t b) : Flt fmt)
  split_ifs
  · exact bounded_ofSign hk hk' (by simp; positivity)
  · exact bounded_ofRat hk hk' hs

theorem Bounded.sub {k : ℤ} (hk : fmt.emin ≤ k + 1) (hk' : k + 1 < fmt.emax) {x y : Flt fmt}
    (hx : Bounded k x) (hy : Bounded k y) : Bounded (k + 1) (x - y) := hx.add hk hk' hy.neg

theorem Bounded.mul {j k : ℤ} (hk : fmt.emin ≤ j + k) (hk' : j + k < fmt.emax) {x y : Flt fmt}
    (hx : Bounded j x) (hy : Bounded k y) : Bounded (j + k) (x * y) := by
  obtain ⟨s, a, rfl⟩ := hx.exists_fin
  obtain ⟨t, b, rfl⟩ := hy.exists_fin
  refine bounded_ofSign hk hk' ?_
  rw [abs_of_nonneg (mul_nonneg a.2.1 b.2.1), zpow_add₀ (by norm_num : (2 : ℚ) ≠ 0)]
  exact mul_le_mul hx hy b.2.1 (by positivity)

theorem Bounded.div {j k : ℤ} (hk : fmt.emin ≤ j - k) (hk' : j - k < fmt.emax) {x y : Flt fmt}
    (hx : Bounded j x) (hy : y.IsFinite) (hyk : 2 ^ k ≤ |y.val|) : Bounded (j - k) (x / y) := by
  obtain ⟨s, a, rfl⟩ := hx.exists_fin
  obtain ⟨t, b, rfl⟩ := hy.exists_fin
  have hb : (2 : ℚ) ^ k ≤ b := by
    have h : 2 ^ k ≤ |signed t b| := hyk
    rwa [abs_signed, abs_of_nonneg b.2.1] at h
  have hb0 : (0 : ℚ) < b := lt_of_lt_of_le (by positivity) hb
  show Bounded (j - k) (if b.1 = 0 then (if a.1 = 0 then nan else inf (s ^^ t))
    else ofSign (s ^^ t) (a / b) : Flt fmt)
  rw [if_neg hb0.ne']
  refine bounded_ofSign hk hk' ?_
  rw [abs_of_nonneg (div_nonneg a.2.1 hb0.le), div_le_iff₀ hb0, zpow_sub₀ (by norm_num : (2 : ℚ) ≠ 0),
    div_mul_eq_mul_div, le_div_iff₀ (by positivity)]
  exact mul_le_mul hx hb (by positivity) (by positivity)

/-- A rational of magnitude at least `2 ^ k` does not round below it. -/
theorem two_zpow_le_abs_ofSign {k : ℤ} (hk : fmt.emin ≤ k) {s : Bool} {q : ℚ}
    (h : (2 : ℚ) ^ k ≤ |q|) (hf : (ofSign s q : Flt fmt).IsFinite) :
    (2 : ℚ) ^ k ≤ |(ofSign s q : Flt fmt).val| := by
  have hr := FloatFormat.two_zpow_le_roundMag hk h
  unfold ofSign at hf ⊢
  split_ifs at hf ⊢ with hlt
  · show (2 : ℚ) ^ k ≤ |signed _ _|
    rw [abs_signed, abs_of_nonneg (FloatFormat.roundMag_nonneg (abs_nonneg q))]
    exact hr
  · exact hf.elim

theorem two_zpow_le_abs_ofRat {k : ℤ} (hk : fmt.emin ≤ k) {q : ℚ} (h : (2 : ℚ) ^ k ≤ |q|)
    (hf : (ofRat q : Flt fmt).IsFinite) : (2 : ℚ) ^ k ≤ |(ofRat q : Flt fmt).val| :=
  two_zpow_le_abs_ofSign hk h hf

theorem two_zpow_le_abs_div {k : ℤ} (hk : fmt.emin ≤ k) {x y : Flt fmt} (hx : x.IsFinite)
    (hy : y.IsFinite) (hy0 : y.val ≠ 0) (h : (2 : ℚ) ^ k ≤ |x.val| / |y.val|)
    (hf : (x / y).IsFinite) : (2 : ℚ) ^ k ≤ |(x / y).val| := by
  obtain ⟨s, a, rfl⟩ := hx.exists_fin
  obtain ⟨t, b, rfl⟩ := hy.exists_fin
  have hb : b.1 ≠ 0 := by
    intro hb
    apply hy0
    cases t <;> simp [val, signed, hb]
  have hdiv : (fin s a / fin t b : Flt fmt) = ofSign (s ^^ t) (a / b) := if_neg hb
  rw [hdiv] at hf ⊢
  refine two_zpow_le_abs_ofSign hk ?_ hf
  rw [abs_div]
  simpa only [val, abs_signed] using h

theorem Bounded.of_between {k : ℤ} {x y : Flt fmt} (hy : Bounded k y) (h1 : -y ≤ x) (h2 : x ≤ y) :
    Bounded k x := by
  have hf := IsFinite.of_between hy.isFinite.neg hy.isFinite h1 h2
  obtain ⟨t, b, rfl⟩ := hy.exists_fin
  obtain ⟨s, a, rfl⟩ := hf.exists_fin
  have h3 : signed (!t) b ≤ signed s a := le_fin_iff.1 h1
  have h4 : signed s a ≤ signed t b := le_fin_iff.1 h2
  have hab : |signed s (a : ℚ)| ≤ signed t b := abs_le.2 ⟨signed_not t (b : ℚ) ▸ h3, h4⟩
  have hb : |signed s (a : ℚ)| ≤ |signed t (b : ℚ)| := hab.trans (le_abs_self _)
  rw [abs_signed, abs_signed, abs_of_nonneg a.2.1, abs_of_nonneg b.2.1] at hb
  exact hb.trans hy

/-! ## Zeros -/

def IsZero : Flt fmt → Prop
  | fin _ a => (a : ℚ) = 0
  | _ => False

theorem IsZero.exists_fin {x : Flt fmt} (h : x.IsZero) : ∃ s a, x = fin s a := by
  rcases x with _ | _ | ⟨s, a⟩
  · exact h.elim
  · exact h.elim
  · exact ⟨s, a, rfl⟩

theorem IsZero.bounded {x : Flt fmt} (h : x.IsZero) (k : ℤ) : Bounded k x := by
  obtain ⟨s, a, rfl⟩ := h.exists_fin
  · show (a : ℚ) ≤ 2 ^ k
    rw [show (a : ℚ) = 0 from h]
    positivity

theorem IsZero.val {x : Flt fmt} (h : x.IsZero) : x.val = 0 := by
  obtain ⟨s, a, rfl⟩ := h.exists_fin
  · have ha : (a : ℚ) = 0 := h
    cases s <;> simp [Flt.val, signed, ha]

theorem isZero_iff {x : Flt fmt} : x.IsZero ↔ x.IsFinite ∧ x.val = 0 := by
  constructor
  · intro h
    exact ⟨(h.bounded 0).isFinite, h.val⟩
  · rintro ⟨h, hval⟩
    obtain ⟨s, a, rfl⟩ := h.exists_fin
    have habs : |signed s (a : ℚ)| = 0 := abs_eq_zero.2 hval
    rwa [abs_signed, abs_eq_zero] at habs

theorem IsZero.neg {x : Flt fmt} (h : x.IsZero) : (-x).IsZero := by
  rcases x with _ | _ | _
  · exact h
  · exact h
  · exact h

theorem isZero_ofSign_zero (s : Bool) : (ofSign s 0 : Flt fmt).IsZero := by
  have h0 : fmt.roundMag |(0 : ℚ)| = 0 := by rw [abs_zero, FloatFormat.roundMag_zero]
  have hlt : fmt.roundMag |(0 : ℚ)| < 2 ^ fmt.emax := by rw [h0]; positivity
  simp only [ofSign, dif_pos hlt]
  exact h0

theorem isZero_ofRat_zero : (ofRat 0 : Flt fmt).IsZero := isZero_ofSign_zero _

theorem val_ofRat_zero : (ofRat 0 : Flt fmt).val = 0 := isZero_ofRat_zero.val

theorem IsFinite.mul_isZero {x y : Flt fmt} (hx : x.IsFinite) (hy : y.IsZero) : (x * y).IsZero := by
  obtain ⟨s, a, rfl⟩ := hx.exists_fin
  obtain ⟨t, b, rfl⟩ := hy.exists_fin
  have hb : (b : ℚ) = 0 := hy
  show (ofSign (s ^^ t) (a * b) : Flt fmt).IsZero
  rw [hb, mul_zero]
  exact isZero_ofSign_zero _

theorem IsFinite.add_isZero {x y : Flt fmt} (hx : x.IsFinite) (hy : y.IsZero) :
    (x + y).IsFinite := by
  obtain ⟨s, a, rfl⟩ := hx.exists_fin
  obtain ⟨t, b, rfl⟩ := hy.exists_fin
  have hb : signed t b = 0 := by
    rw [show (b : ℚ) = 0 from hy]
    cases t <;> simp [signed]
  have hmag : fmt.roundMag |signed s a| = a := by
    rw [abs_signed, abs_of_nonneg a.2.1]
    exact FloatFormat.Representable.roundMag_eq a.2.1 a.2.2.2
  show (if signed s a + signed t b = 0 then ofSign (s && t) 0
    else ofRat (signed s a + signed t b) : Flt fmt).IsFinite
  rw [hb, add_zero]
  split_ifs
  · exact ((isZero_ofSign_zero _).bounded 0).isFinite
  · have hlt : fmt.roundMag |signed s a| < 2 ^ fmt.emax := by
      rw [hmag]
      exact a.2.2.1
    simp only [ofRat, ofSign, dif_pos hlt]
    trivial

/-- A rounded magnitude is not below zero, unless it has a minus sign and is not zero itself. -/
theorem not_ofSign_lt_isZero {s : Bool} {q : ℚ} {z : Flt fmt} (h : s = true → q = 0)
    (hf : (ofSign s q : Flt fmt).IsFinite) (hz : z.IsZero) : ¬ (ofSign s q : Flt fmt) < z := by
  obtain ⟨t, b, rfl⟩ := hz.exists_fin
  have hb : signed t (b : ℚ) = 0 := by
    rw [show (b : ℚ) = 0 from hz]
    cases t <;> simp [signed]
  have hs : 0 ≤ signed s (fmt.roundMag |q|) := by
    cases s with
    | false => exact FloatFormat.roundMag_nonneg (abs_nonneg q)
    | true => simp [h rfl, FloatFormat.roundMag_zero, signed]
  unfold ofSign at hf ⊢
  split_ifs at hf ⊢ with hlt
  · rw [lt_fin_iff, hb]
    exact not_lt.2 hs
  · exact hf.elim

/-- A number that is neither above nor below zero is a zero. -/
theorem IsNum.isZero {x y : Flt fmt} (hx : x.IsNum) (hy : y.IsZero) (h1 : ¬ y < x)
    (h2 : ¬ x < -y) : x.IsZero := by
  have h3 := IsNum.le_of_not_lt (hy.bounded 0).isFinite.isNum hx h1
  have h4 := IsNum.le_of_not_lt hx (hy.bounded 0).isFinite.neg.isNum h2
  have hf := IsFinite.of_between (hy.bounded 0).isFinite.neg (hy.bounded 0).isFinite h4 h3
  obtain ⟨t, b, rfl⟩ := hy.exists_fin
  obtain ⟨s, a, rfl⟩ := hf.exists_fin
  have hb : (b : ℚ) = 0 := hy
  have h5 : signed (!t) b ≤ signed s a := le_fin_iff.1 h4
  have h6 : signed s a ≤ signed t b := le_fin_iff.1 h3
  have hz : ∀ u : Bool, signed u (b : ℚ) = 0 := by
    intro u
    rw [hb]
    cases u <;> simp [signed]
  rw [hz] at h5 h6
  have ha : |signed s (a : ℚ)| = 0 := by rw [le_antisymm h6 h5, abs_zero]
  rwa [abs_signed, abs_eq_zero] at ha

/-! ## Distances -/

theorem val_neg (x : Flt fmt) : (-x).val = -x.val := by
  rcases x with _ | _ | ⟨s, a⟩
  · exact neg_zero.symm
  · exact neg_zero.symm
  · exact signed_not s (a : ℚ)

theorem IsFinite.val_neg {x : Flt fmt} (_ : x.IsFinite) : (-x).val = -x.val := Flt.val_neg x

/-- The distance that is computed is the rounded distance. -/
theorem abs_sub_le_iff {x y t : Flt fmt} (hx : x.IsFinite) (hy : y.IsFinite) (ht : t.IsFinite) :
    (x - y).abs ≤ t ↔ fmt.roundMag |x.val - y.val| ≤ t.val := by
  obtain ⟨u, c, rfl⟩ := ht.exists_fin
  have hround : ∀ (s : Bool) (q : ℚ), (ofSign s q : Flt fmt).abs ≤ fin u c ↔
      fmt.roundMag |q| ≤ signed u c := by
    intro s q
    unfold ofSign
    split_ifs with hlt
    · exact le_fin_iff
    · -- an infinity, and a magnitude above all finite ones
      have hc : signed u (c : ℚ) ≤ c := by
        cases u
        · exact le_rfl
        · exact neg_le_self c.2.1
      refine iff_of_false ?_ fun h => hlt ((h.trans hc).trans_lt c.2.2.1)
      simp [abs, le_def, key]
  have hsub : x.val - y.val = x.val + (-y).val := by rw [hy.val_neg, sub_eq_add_neg]
  have hy' := hy.neg
  rw [hsub]
  show (x + -y).abs ≤ fin u c ↔ _
  generalize -y = z at hy'
  obtain ⟨s, a, rfl⟩ := hx.exists_fin
  obtain ⟨v, b, rfl⟩ := hy'.exists_fin
  show (if signed s a + signed v b = 0 then ofSign (s && v) 0
    else ofRat (signed s a + signed v b) : Flt fmt).abs ≤ fin u c ↔
      fmt.roundMag |signed s a + signed v b| ≤ signed u c
  split_ifs with h0
  · rw [h0]
    exact hround _ _
  · exact hround _ _

theorem abs_val_ofRat_sub_le {k : ℤ} (hk : fmt.emin + fmt.prec ≤ k + 1) (hk' : k < fmt.emax) {q : ℚ}
    (h : |q| ≤ 2 ^ k) :
    (ofRat q : Flt fmt).IsFinite ∧ |(ofRat q : Flt fmt).val - q| ≤ 2 ^ (k - fmt.prec) := by
  have hp := fmt.prec_pos
  have hemin : fmt.emin ≤ k := by omega
  have hlt : fmt.roundMag |q| < 2 ^ fmt.emax :=
    (FloatFormat.roundMag_le_two_zpow hemin (abs_nonneg q) h).trans_lt
      (zpow_lt_zpow_right₀ (by norm_num) hk')
  have herr := FloatFormat.abs_roundMag_sub_le hk (abs_nonneg q) h
  simp only [ofRat, ofSign, dif_pos hlt]
  refine ⟨trivial, ?_⟩
  show |signed (decide (q < 0)) (fmt.roundMag |q|) - q| ≤ _
  by_cases hq : q < 0
  · rw [abs_of_neg hq] at herr ⊢
    rw [decide_eq_true hq, signed, if_pos rfl, ← abs_neg]
    rwa [neg_sub, sub_neg_eq_add, add_comm, ← sub_neg_eq_add]
  · rw [abs_of_nonneg (not_lt.1 hq)] at herr ⊢
    rwa [decide_eq_false hq, signed, if_neg Bool.false_ne_true]

/-- A number that is zero or not too small is a multiple of a given quantum. -/
theorem IsFinite.exists_mul {x : Flt fmt} (hx : x.IsFinite) {e : ℤ}
    (h : x.val = 0 ∨ (2 : ℚ) ^ (e + fmt.prec - 1) ≤ |x.val|) : ∃ n : ℤ, x.val = n * 2 ^ e := by
  rcases h with h | h
  · exact ⟨0, by rw [h, Int.cast_zero, zero_mul]⟩
  obtain ⟨s, a, rfl⟩ := hx.exists_fin
  have ha : (2 : ℚ) ^ (e + fmt.prec - 1) ≤ a := by
    have h1 : (2 : ℚ) ^ (e + fmt.prec - 1) ≤ |signed s a| := h
    rwa [abs_signed, abs_of_nonneg a.2.1] at h1
  have hpos : (0 : ℚ) < a := lt_of_lt_of_le (by positivity) ha
  have hlog : e + fmt.prec - 1 ≤ ilog2 (a : ℚ) := le_ilog2_of_le hpos ha
  have hq : e ≤ fmt.quantumExp a := by
    unfold FloatFormat.quantumExp
    omega
  obtain ⟨m, hm⟩ := a.2.2.2.exists_mul_quantum hpos
  have hmul : (a : ℚ) = ((m * 2 ^ (fmt.quantumExp a - e).toNat : ℤ) : ℚ) * 2 ^ e := by
    rw [Int.cast_mul, mul_assoc, ← FloatFormat.two_zpow_eq_mul hq]
    exact hm
  cases s with
  | false => exact ⟨_, hmul⟩
  | true => exact ⟨-(m * 2 ^ (fmt.quantumExp a - e).toNat), by
      rw [Int.cast_neg, neg_mul, ← hmul]; rfl⟩

/-- The computed distance of two multiples of a quantum exceeds a bound exactly when their distance
does, provided the bound is small enough: a distance that is not exact exceeds it anyway. -/
theorem abs_sub_le_iff_of_mul {x y t : Flt fmt} {e m n : ℤ} (he : fmt.emin ≤ e) (hx : x.IsFinite)
    (hy : y.IsFinite) (ht : t.IsFinite) (hm : x.val = m * 2 ^ e) (hn : y.val = n * 2 ^ e)
    (htop : t.val < 2 ^ (e + fmt.prec)) : (x - y).abs ≤ t ↔ |x.val - y.val| ≤ t.val := by
  rw [abs_sub_le_iff hx hy ht]
  have hd : x.val - y.val = ((m - n : ℤ) : ℚ) * 2 ^ e := by
    rw [hm, hn]
    push_cast
    ring
  constructor
  · intro h
    by_cases hbig : (2 : ℚ) ^ (e + fmt.prec) ≤ |x.val - y.val|
    · have hle : fmt.emin ≤ e + fmt.prec := by omega
      have h1 := FloatFormat.two_zpow_le_roundMag hle hbig
      exact absurd (h1.trans h) (not_le.2 htop)
    · have hrep : fmt.Representable |x.val - y.val| := by
        rw [hd] at hbig ⊢
        exact FloatFormat.representable_abs_mul he (not_le.1 hbig).le
      rwa [hrep.roundMag_eq (abs_nonneg _)] at h
  · intro h
    obtain ⟨u, c, rfl⟩ := ht.exists_fin
    have hc : signed u (c : ℚ) = c := by
      have h0 : 0 ≤ signed u (c : ℚ) := (abs_nonneg _).trans h
      rw [← abs_of_nonneg h0, abs_signed, abs_of_nonneg c.2.1]
    have hval : (fin u c : Flt fmt).val = c := hc
    rw [hval] at h ⊢
    exact c.2.2.2.roundMag_le (abs_nonneg _) h

end Flt

end Lib
