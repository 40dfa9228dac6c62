import EdnaDrone.Lib.Flt

/-!
# Monotone arithmetic

Rounding to nearest keeps the order of its arguments, and so do the operations built on it. Two
numbers with the same `key` compare alike, which is how the sign of a zero drops out. A summand is lost
to rounding when it is less than half the gap above the other one.
-/

namespace Lib

theorem roundHalfEven_mono {q r : ℚ} (h : q ≤ r) : roundHalfEven q ≤ roundHalfEven r := by
  rcases (Int.floor_le_floor h).eq_or_lt with hf | hf
  · have hsub : q - ⌊q⌋ ≤ r - ⌊r⌋ := by
      rw [hf]
      linarith
    unfold roundHalfEven
    rw [← hf] at hsub ⊢
    split_ifs <;> first | omega | linarith
  · have hr := le_roundHalfEven (Int.floor_le r)
    have hq : q ≤ (⌊q⌋ + 1 : ℤ) := by
      push_cast
      exact (Int.lt_floor_add_one q).le
    have := roundHalfEven_le hq
    omega

theorem roundHalfEven_add_eq_iff {n : ℤ} {r : ℚ} (h0 : 0 ≤ r) (h1 : r < 1) :
    roundHalfEven (n + r) = n ↔ r < 1 / 2 ∨ r = 1 / 2 ∧ Even n := by
  have hfloor : ⌊(n : ℚ) + r⌋ = n := by
    rw [Int.floor_eq_iff]
    constructor <;> linarith
  have hsub : (n : ℚ) + r - n = r := add_sub_cancel_left _ _
  unfold roundHalfEven
  rw [hfloor, hsub, Int.even_iff]
  rcases lt_trichotomy r (1 / 2) with hr | hr | hr
  · rw [if_pos hr]
    exact iff_of_true rfl (.inl hr)
  · rw [if_neg hr.not_lt, if_neg hr.not_gt]
    split_ifs with hn
    · simp [hr, hn]
    · simp [hr, hn]
  · rw [if_neg hr.not_gt, if_pos hr]
    refine iff_of_false (by omega) ?_
    rintro (h | ⟨h, -⟩) <;> linarith

namespace FloatFormat

variable {fmt : FloatFormat} {x d : ℚ}

/-- Two magnitudes whose quanta differ have a power of two between them, which no rounding crosses. -/
theorem roundMag_mono {q r : ℚ} (hq : 0 ≤ q) (h : q ≤ r) : fmt.roundMag q ≤ fmt.roundMag r := by
  rcases hq.eq_or_lt with rfl | hq
  · rw [roundMag_zero]
    exact roundMag_nonneg h
  have hr : 0 < r := hq.trans_le h
  have hquant : fmt.quantumExp q ≤ fmt.quantumExp r := quantumExp_mono hq h
  rcases hquant.eq_or_lt with he | he
  · have hu : (0 : ℚ) < 2 ^ fmt.quantumExp r := by positivity
    rw [roundMag_of_pos hq, roundMag_of_pos hr, he]
    have hdiv : q / 2 ^ fmt.quantumExp r ≤ r / 2 ^ fmt.quantumExp r :=
      div_le_div_of_nonneg_right h hu.le
    exact mul_le_mul_of_nonneg_right (by exact_mod_cast roundHalfEven_mono hdiv) hu.le
  · have hp := fmt.prec_pos
    have hlog : ilog2 q < ilog2 r ∧ fmt.emin ≤ ilog2 r := by
      unfold quantumExp at he
      omega
    have hsep : q ≤ 2 ^ ilog2 r :=
      (lt_zpow_ilog2 hq).le.trans (zpow_le_zpow_right₀ (by norm_num) (by omega))
    exact (roundMag_le_two_zpow hlog.2 hq.le hsep).trans
      (two_zpow_le_roundMag hlog.2 (zpow_ilog2_le hr))

/-! ## Sums that round to a summand -/

/-- The distance from the magnitude `x` to the next one of the format. -/
def gap (fmt : FloatFormat) (x : ℚ) : ℚ := if x = 0 then 2 ^ fmt.emin else 2 ^ fmt.quantumExp x

/-- Adding the magnitude `d` to `x` does not take it halfway to the next one, or just halfway when the
significand of `x` is even. -/
def Swallows (fmt : FloatFormat) (x d : ℚ) : Prop :=
  2 * d < fmt.gap x ∨ 2 * d = fmt.gap x ∧ Even ⌊x / fmt.gap x⌋

instance : Decidable (fmt.Swallows x d) := inferInstanceAs (Decidable (_ ∨ _))

/-- A magnitude of the format is a multiple of its gap, and the next one is of the format too. -/
theorem Representable.exists_gap (hx : 0 ≤ x) (h : fmt.Representable x) :
    ∃ (e n : ℤ), fmt.emin ≤ e ∧ (0 < x → e = fmt.quantumExp x) ∧ fmt.gap x = 2 ^ e ∧ x = n * 2 ^ e ∧
      0 ≤ n ∧ n < 2 ^ fmt.prec := by
  have h2 : (2 : ℚ) ≠ 0 := by norm_num
  rcases hx.eq_or_lt with rfl | hx
  · exact ⟨fmt.emin, 0, le_rfl, fun h0 => absurd h0 (lt_irrefl _), if_pos rfl, by simp, le_rfl,
      by positivity⟩
  obtain ⟨n, hn⟩ := h.exists_mul_quantum hx
  have hu : (0 : ℚ) < 2 ^ fmt.quantumExp x := by positivity
  have hn0 : (0 : ℚ) < n := pos_of_mul_pos_left (hn ▸ hx) hu.le
  have htop : x < 2 ^ ((fmt.prec : ℤ) + fmt.quantumExp x) := by
    refine (lt_zpow_ilog2 hx).trans_le (zpow_le_zpow_right₀ (by norm_num) ?_)
    have : ilog2 x + 1 - fmt.prec ≤ fmt.quantumExp x := le_max_right _ _
    omega
  rw [zpow_add₀ h2, zpow_natCast] at htop
  have hlt : (n : ℚ) < 2 ^ fmt.prec := lt_of_mul_lt_mul_right (hn ▸ htop) hu.le
  exact ⟨fmt.quantumExp x, n, le_max_left _ _, fun _ => rfl, if_neg hx.ne', hn,
    by exact_mod_cast hn0.le, by exact_mod_cast hlt⟩

/-- A sum of magnitudes rounds to the larger one exactly when this swallows the other. -/
theorem roundMag_add_eq_iff (hx : 0 ≤ x) (h : fmt.Representable x) (hd : 0 ≤ d) :
    fmt.roundMag (x + d) = x ↔ fmt.Swallows x d := by
  obtain ⟨e, n, he, hquant, hgap, hn, hn0, hn1⟩ := h.exists_gap hx
  have hu : (0 : ℚ) < 2 ^ e := by positivity
  unfold Swallows
  rw [hgap]
  rcases lt_or_ge d (2 ^ e) with hlt | hge
  · rcases (add_nonneg hx hd).eq_or_lt with hzero | hpos
    · have hx0 : x = 0 := by linarith
      have hd0 : d = 0 := by linarith
      rw [hx0, hd0]
      simp [roundMag_zero, hu]
    have hnext : x + d < 2 ^ ((fmt.prec : ℤ) + e) := by
      have hn1' : (n : ℚ) + 1 ≤ 2 ^ fmt.prec := by exact_mod_cast hn1
      calc x + d < (n + 1) * 2 ^ e := by rw [hn]; linarith
        _ ≤ 2 ^ fmt.prec * 2 ^ e := mul_le_mul_of_nonneg_right hn1' hu.le
        _ = 2 ^ ((fmt.prec : ℤ) + e) := by rw [zpow_add₀ two_ne_zero, zpow_natCast]
    have hlog : ilog2 (x + d) ≤ fmt.prec + e - 1 := ilog2_le_of_lt hpos (by simpa using hnext)
    have hsame : fmt.quantumExp (x + d) = e := by
      refine le_antisymm (max_le he (by omega)) ?_
      rcases hx.eq_or_lt with hx0 | hx0
      · have hemin : e = fmt.emin := by
          have h1 : fmt.gap x = 2 ^ fmt.emin := if_pos hx0.symm
          exact zpow_right_injective₀ (by norm_num) (by norm_num) (hgap.symm.trans h1)
        rw [hemin]
        exact le_max_left _ _
      · rw [hquant hx0]
        exact quantumExp_mono hx0 (by linarith)
    have hdiv : (x + d) / 2 ^ e = n + d / 2 ^ e := by
      rw [hn, add_div, mul_div_cancel_right₀ _ hu.ne']
    have hfloor : ⌊x / 2 ^ e⌋ = n := by rw [hn, mul_div_cancel_right₀ _ hu.ne', Int.floor_intCast]
    rw [roundMag_of_pos hpos, hsame, hdiv, hfloor]
    have hcancel : (roundHalfEven (n + d / 2 ^ e) : ℚ) * 2 ^ e = x ↔
        roundHalfEven (n + d / 2 ^ e) = n := by
      rw [hn, mul_left_inj' hu.ne', Int.cast_inj]
    rw [hcancel, roundHalfEven_add_eq_iff (div_nonneg hd hu.le) ((div_lt_one hu).2 hlt),
      div_lt_iff₀ hu, div_eq_iff hu.ne']
    constructor
    · rintro (h | ⟨h, hev⟩)
      · exact .inl (by linarith)
      · exact .inr ⟨by linarith, hev⟩
    · rintro (h | ⟨h, hev⟩)
      · exact .inl (by linarith)
      · exact .inr ⟨by linarith, hev⟩
  · -- the sum reaches the next number of the format
    have hrep : fmt.Representable (x + 2 ^ e) := by
      refine ⟨n.toNat + 1, e, he, ?_, ?_⟩
      · have : (n.toNat : ℤ) < 2 ^ fmt.prec := by rwa [Int.toNat_of_nonneg hn0]
        exact_mod_cast this
      · have hcast : ((n.toNat : ℕ) : ℚ) = n := by exact_mod_cast Int.toNat_of_nonneg hn0
        push_cast
        rw [hcast, hn]
        ring
    have hstep : fmt.roundMag (x + 2 ^ e) ≤ fmt.roundMag (x + d) :=
      roundMag_mono (by positivity) (by linarith)
    rw [hrep.roundMag_eq (by positivity)] at hstep
    refine iff_of_false (fun heq => by linarith) ?_
    rintro (h | ⟨h, -⟩) <;> linarith

end FloatFormat

namespace Flt

variable {fmt : FloatFormat} {x y z : Flt fmt}

/-! ## Comparing by keys -/

theorem le_congr {x' y' : Flt fmt} (hx : x.key = x'.key) (hy : y.key = y'.key) :
    x ≤ y ↔ x' ≤ y' := by
  rw [le_def, le_def, hx, hy]

theorem le_iff_val (hx : x.IsFinite) (hy : y.IsFinite) : x ≤ y ↔ x.val ≤ y.val := by
  obtain ⟨s, a, rfl⟩ := hx.exists_fin
  obtain ⟨t, b, rfl⟩ := hy.exists_fin
  exact le_fin_iff

theorem lt_congr {x' y' : Flt fmt} (hx : x.key = x'.key) (hy : y.key = y'.key) :
    x < y ↔ x' < y' := by
  rw [lt_def, lt_def, hx, hy]

protected theorem lt_of_lt_of_le (h1 : x < y) (h2 : y ≤ z) : x < z := by
  obtain ⟨a, b, ha, hb, hab⟩ := (lt_def x y).1 h1
  obtain ⟨b', c, hb', hc, hbc⟩ := (le_def y z).1 h2
  obtain rfl : b = b' := Option.some.inj (hb ▸ hb')
  exact (lt_def x z).2 ⟨a, c, ha, hc, hab.trans_le hbc⟩

protected theorem lt_of_le_of_lt (h1 : x ≤ y) (h2 : y < z) : x < z := by
  obtain ⟨a, b, ha, hb, hab⟩ := (le_def x y).1 h1
  obtain ⟨b', c, hb', hc, hbc⟩ := (lt_def y z).1 h2
  obtain rfl : b = b' := Option.some.inj (hb ▸ hb')
  exact (lt_def x z).2 ⟨a, c, ha, hc, hab.trans_lt hbc⟩

theorem isNum_of_lt (h : x < y) : x.IsNum ∧ y.IsNum := isNum_of_le (Flt.le_of_lt h)

theorem IsNum.neg (h : x.IsNum) : (-x).IsNum := by
  rcases x with _ | _ | _
  · exact absurd rfl h
  · exact nofun
  · exact nofun

theorem key_eq_none_iff : x.key = none ↔ ¬ x.IsNum := by
  rcases x with _ | (_ | _) | _ <;> simp [key, IsNum]

theorem lt_iff_of_key {a b : WithBot (WithTop ℚ)} (hx : x.key = some a) (hy : y.key = some b) :
    x < y ↔ a < b := by
  rw [lt_def, hx, hy]
  simp

theorem le_iff_of_key {a b : WithBot (WithTop ℚ)} (hx : x.key = some a) (hy : y.key = some b) :
    x ≤ y ↔ a ≤ b := by
  rw [le_def, hx, hy]
  simp

theorem not_lt_of_key_eq (h : x.key = y.key) : ¬ x < y := by
  rw [lt_def]
  rintro ⟨a, b, ha, hb, hab⟩
  rw [ha, hb] at h
  exact hab.ne (Option.some.inj h)

theorem key_eq_of_numEq (h : numEq x y = true) : x.key = y.key := by
  unfold numEq at h
  rw [Bool.and_eq_true, beq_iff_eq] at h
  exact h.2

theorem lt_iff_not_le (hx : x.IsNum) (hy : y.IsNum) : x < y ↔ ¬ y ≤ x := by
  obtain ⟨a, ha⟩ := hx.exists_key
  obtain ⟨b, hb⟩ := hy.exists_key
  rw [lt_def, le_def, ha, hb]
  simp

theorem IsFinite.key_eq (hx : x.IsFinite) :
    x.key = some ((x.val : WithTop ℚ) : WithBot (WithTop ℚ)) := by
  obtain ⟨s, a, rfl⟩ := hx.exists_fin
  rfl

/-- A number with the key of a finite one is finite, and has its value. -/
theorem IsFinite.of_key_eq (hy : y.IsFinite) (h : x.key = y.key) : x.IsFinite ∧ x.val = y.val := by
  rw [hy.key_eq] at h
  rcases x with _ | (_ | _) | ⟨s, a⟩
  · cases h
  · exact absurd (Option.some.inj h) (by simp)
  · exact absurd (Option.some.inj h) (by simp)
  · refine ⟨trivial, ?_⟩
    exact WithTop.coe_injective (WithBot.coe_injective (Option.some.inj h))

theorem IsZero.of_key_eq (hy : y.IsZero) (h : x.key = y.key) : x.IsZero := by
  obtain ⟨hf, hval⟩ := (hy.bounded 0).isFinite.of_key_eq h
  exact isZero_iff.2 ⟨hf, hval.trans hy.val⟩

/-- Only zeros share a key. -/
theorem eq_of_key_eq (hx : ¬ x.IsFinite) (h : x.key = y.key) : x = y := by
  rcases x with _ | s | ⟨s, a⟩
  · rcases y with _ | (_ | _) | _
    · rfl
    · cases h
    · cases h
    · cases h
  · rcases y with _ | t | ⟨t, b⟩
    · cases s <;> cases h
    · cases s <;> cases t <;> simp [key] at h ⊢
    · cases s <;> simp [key] at h
  · exact absurd trivial hx

theorem IsNum.le_inf (hx : x.IsNum) : x ≤ inf false := by
  obtain ⟨a, ha⟩ := hx.exists_key
  rw [le_def]
  refine ⟨a, _, ha, rfl, ?_⟩
  cases a with
  | bot => exact bot_le
  | coe a => exact WithBot.coe_le_coe.2 le_top

theorem IsNum.inf_le (hx : x.IsNum) : inf true ≤ x := by
  obtain ⟨a, ha⟩ := hx.exists_key
  rw [le_def]
  exact ⟨⊥, a, rfl, ha, bot_le⟩

/-! ## Rounded rationals -/

theorem ofSign_false_mono {q r : ℚ} (h : |q| ≤ |r|) :
    (ofSign false q : Flt fmt) ≤ ofSign false r := by
  have hround : fmt.roundMag |q| ≤ fmt.roundMag |r| := FloatFormat.roundMag_mono (abs_nonneg q) h
  by_cases hr : fmt.roundMag |r| < 2 ^ fmt.emax
  · simp only [ofSign, dif_pos hr, dif_pos (hround.trans_lt hr), le_fin_iff]
    exact hround
  · have hinf : (ofSign false r : Flt fmt) = inf false := dif_neg hr
    rw [hinf]
    exact (ofSign_isNum _ _).le_inf

theorem ofSign_true_anti {q r : ℚ} (h : |q| ≤ |r|) :
    (ofSign true r : Flt fmt) ≤ ofSign true q := by
  have hround : fmt.roundMag |q| ≤ fmt.roundMag |r| := FloatFormat.roundMag_mono (abs_nonneg q) h
  by_cases hr : fmt.roundMag |r| < 2 ^ fmt.emax
  · simp only [ofSign, dif_pos hr, dif_pos (hround.trans_lt hr), le_fin_iff]
    exact neg_le_neg hround
  · have hinf : (ofSign true r : Flt fmt) = inf true := dif_neg hr
    rw [hinf]
    exact (ofSign_isNum _ _).inf_le

theorem IsZero.key_eq (hz : z.IsZero) : z.key = (ofRat 0 : Flt fmt).key := by
  have h0 : (ofRat 0 : Flt fmt).IsZero := isZero_ofRat_zero
  rw [(hz.bounded 0).isFinite.key_eq, (h0.bounded 0).isFinite.key_eq, hz.val, h0.val]

theorem key_ofSign_zero (s : Bool) : (ofSign s 0 : Flt fmt).key = (ofRat 0 : Flt fmt).key :=
  (isZero_ofSign_zero s).key_eq

/-- The sign of a number is how it compares with its negation. -/
theorem sign_iff_key {a b : WithBot (WithTop ℚ)} (ha : x.key = some a)
    (hb : (-x).key = some b) :
    (ofRat 0 < x ↔ b < a) ∧ (x < ofRat 0 ↔ a < b) ∧ (x.IsZero ↔ a = b) := by
  have hzero : (ofRat 0 : Flt fmt).IsZero := isZero_ofRat_zero
  have hz : (ofRat 0 : Flt fmt).key = some (((0 : ℚ) : WithTop ℚ) : WithBot (WithTop ℚ)) := by
    rw [(hzero.bounded 0).isFinite.key_eq, hzero.val]
  rw [lt_iff_of_key hz ha, lt_iff_of_key ha hz]
  rcases x with _ | (_ | _) | ⟨s, m⟩
  · cases ha
  · obtain rfl := Option.some.inj ha
    obtain rfl := Option.some.inj hb
    refine ⟨?_, ?_, ?_⟩
    · exact iff_of_true (WithBot.coe_lt_coe.2 (WithTop.coe_lt_top _)) (WithBot.bot_lt_coe _)
    · simp
    · simp [IsZero]
  · obtain rfl := Option.some.inj ha
    obtain rfl := Option.some.inj hb
    refine ⟨?_, ?_, ?_⟩
    · simp
    · simp
    · simp [IsZero]
  · obtain rfl := Option.some.inj ha
    obtain rfl := Option.some.inj hb
    have hmag : IsZero (fin s m) ↔ signed s (m : ℚ) = 0 := by
      show (m : ℚ) = 0 ↔ _
      rw [← abs_eq_zero, ← abs_eq_zero (a := signed s _), abs_signed]
    have hcoe : ∀ p q : ℚ, ((p : WithTop ℚ) : WithBot (WithTop ℚ)) < (q : WithTop ℚ) ↔ p < q := by
      intro p q
      rw [WithBot.coe_lt_coe, WithTop.coe_lt_coe]
    have hinj : ∀ p q : ℚ, ((p : WithTop ℚ) : WithBot (WithTop ℚ)) = (q : WithTop ℚ) ↔ p = q := by
      intro p q
      rw [WithBot.coe_inj, WithTop.coe_inj]
    rw [hcoe, hcoe, hcoe, hcoe, hinj, hmag, signed_not]
    refine ⟨?_, ?_, ?_⟩
    · constructor <;> intro h <;> linarith
    · constructor <;> intro h <;> linarith
    · constructor <;> intro h <;> linarith

theorem neg_lt_zero_iff : -x < ofRat 0 ↔ ofRat 0 < x := by
  by_cases hx : x.IsNum
  · obtain ⟨a, ha⟩ := hx.exists_key
    obtain ⟨b, hb⟩ := hx.neg.exists_key
    have hneg : (- -x).key = some a := by
      rw [← ha]
      rcases x with _ | s | ⟨s, m⟩
      · rfl
      · cases s <;> rfl
      · cases s <;> rfl
    rw [(sign_iff_key hb hneg).2.1, (sign_iff_key ha hb).1]
  · obtain rfl : x = nan := not_not.1 hx
    exact iff_of_false (not_nan_lt _) (not_lt_nan _)

theorem ofSign_true_le_false (q r : ℚ) : (ofSign true q : Flt fmt) ≤ ofSign false r := by
  have h0 : (ofSign true 0 : Flt fmt) ≤ ofSign false r :=
    (le_congr (key_ofSign_zero true) rfl).2
      (ofSign_false_mono (q := 0) (by rw [abs_zero]; exact abs_nonneg r))
  exact Flt.le_trans (ofSign_true_anti (by rw [abs_zero]; exact abs_nonneg q)) h0

theorem ofRat_mono {q r : ℚ} (h : q ≤ r) : (ofRat q : Flt fmt) ≤ ofRat r := by
  unfold ofRat
  by_cases hr : r < 0
  · have hq : q < 0 := h.trans_lt hr
    rw [decide_eq_true hq, decide_eq_true hr]
    apply ofSign_true_anti
    rw [abs_of_neg hr, abs_of_neg hq]
    exact neg_le_neg h
  rw [decide_eq_false hr]
  by_cases hq : q < 0
  · rw [decide_eq_true hq]
    exact ofSign_true_le_false q r
  · rw [decide_eq_false hq]
    apply ofSign_false_mono
    rwa [abs_of_nonneg (not_lt.1 hq), abs_of_nonneg (not_lt.1 hr)]

theorem val_ofRat_of_representable {q : ℚ} (h : fmt.Representable |q|) (hlt : |q| < 2 ^ fmt.emax) :
    (ofRat q : Flt fmt).IsFinite ∧ (ofRat q : Flt fmt).val = q := by
  have hround := h.roundMag_eq (abs_nonneg q)
  have hlt' : fmt.roundMag |q| < 2 ^ fmt.emax := by rwa [hround]
  simp only [ofRat, ofSign, dif_pos hlt']
  refine ⟨trivial, ?_⟩
  show signed (decide (q < 0)) (fmt.roundMag |q|) = q
  rw [hround]
  by_cases hq : q < 0
  · rw [decide_eq_true hq, abs_of_neg hq, signed, if_pos rfl, neg_neg]
  · rw [decide_eq_false hq, abs_of_nonneg (not_lt.1 hq), signed, if_neg Bool.false_ne_true]

theorem IsFinite.representable (hx : x.IsFinite) :
    fmt.Representable |x.val| ∧ |x.val| < 2 ^ fmt.emax := by
  obtain ⟨s, a, rfl⟩ := hx.exists_fin
  show fmt.Representable |signed s (a : ℚ)| ∧ |signed s (a : ℚ)| < 2 ^ fmt.emax
  rw [abs_signed, abs_of_nonneg a.2.1]
  exact ⟨a.2.2.2, a.2.2.1⟩

/-- A rational rounds to a number that does not have the opposite sign exactly when its magnitude
does. -/
theorem key_ofRat_eq_iff (hx : x.IsFinite) {q : ℚ} (h : 0 ≤ q * x.val) :
    (ofRat q : Flt fmt).key = x.key ↔ fmt.roundMag |q| = |x.val| := by
  have hround : 0 ≤ fmt.roundMag |q| := FloatFormat.roundMag_nonneg (abs_nonneg q)
  rw [hx.key_eq]
  unfold ofRat ofSign
  split_ifs with hlt
  · have hkey : (fin (decide (q < 0)) ⟨fmt.roundMag |q|, hround, hlt,
        FloatFormat.representable_roundMag (abs_nonneg q)⟩ : Flt fmt).key =
          some ((x.val : WithTop ℚ) : WithBot (WithTop ℚ)) ↔
        signed (decide (q < 0)) (fmt.roundMag |q|) = x.val := by
      rw [key, Option.some_inj, WithBot.coe_inj, WithTop.coe_inj]
    rw [hkey]
    rcases lt_trichotomy q 0 with hq | rfl | hq
    · have hx0 : x.val ≤ 0 := nonpos_of_mul_nonneg_right h hq
      rw [decide_eq_true hq, abs_of_nonpos hx0, signed, if_pos rfl, neg_eq_iff_eq_neg]
    · simp [signed, FloatFormat.roundMag_zero, eq_comm (a := (0 : ℚ))]
    · have hx0 : 0 ≤ x.val := nonneg_of_mul_nonneg_right h hq
      rw [decide_eq_false hq.not_gt, abs_of_nonneg hx0, signed, if_neg Bool.false_ne_true]
  · refine iff_of_false ?_ fun heq => hlt (heq ▸ hx.representable.2)
    cases decide (q < 0) <;> simp [key]

theorem IsFinite.key_ofRat_val (hx : x.IsFinite) : (ofRat x.val : Flt fmt).key = x.key := by
  rw [key_ofRat_eq_iff hx (mul_self_nonneg _)]
  exact hx.representable.1.roundMag_eq (abs_nonneg _)

theorem key_ofSign {s : Bool} {q : ℚ} (hq : 0 ≤ q) :
    (ofSign s q : Flt fmt).key = (ofRat (signed s q) : Flt fmt).key := by
  rcases hq.eq_or_lt with rfl | hq
  · have h0 : signed s 0 = 0 := by cases s <;> simp [signed]
    rw [h0, key_ofSign_zero]
  · have hs : decide (signed s q < 0) = s := by
      cases s with
      | false => exact decide_eq_false (not_lt.2 hq.le)
      | true => exact decide_eq_true (neg_lt_zero.2 hq)
    unfold ofRat
    rw [hs]
    simp only [ofSign, abs_signed]

theorem signed_mul (s t : Bool) (p q : ℚ) : signed s p * signed t q = signed (s ^^ t) (p * q) := by
  cases s <;> cases t <;> simp [signed]

theorem signed_div (s t : Bool) (p q : ℚ) : signed s p / signed t q = signed (s ^^ t) (p / q) := by
  cases s <;> cases t <;> simp [signed, neg_div, div_neg]

theorem key_add (hx : x.IsFinite) (hy : y.IsFinite) :
    (x + y).key = (ofRat (x.val + y.val) : Flt fmt).key := by
  obtain ⟨s, a, rfl⟩ := hx.exists_fin
  obtain ⟨t, b, rfl⟩ := hy.exists_fin
  show (if signed s a + signed t b = 0 then ofSign (s && t) 0
    else ofRat (signed s a + signed t b) : Flt fmt).key = (ofRat (signed s a + signed t b)).key
  split_ifs with h
  · rw [h, key_ofSign_zero]
  · rfl

theorem add_le_add_left_of_finite (hx : x.IsNum) (hy : y.IsFinite) (hz : z.IsFinite)
    (h : y.val ≤ z.val) : x + y ≤ x + z := by
  rcases x with _ | s | ⟨s, a⟩
  · exact absurd rfl hx
  · obtain ⟨t, b, rfl⟩ := hy.exists_fin
    obtain ⟨u, c, rfl⟩ := hz.exists_fin
    exact le_refl_of_isNum (x := inf s) (by simp [IsNum])
  · have hx' : (fin s a : Flt fmt).IsFinite := trivial
    rw [le_congr (key_add hx' hy) (key_add hx' hz)]
    exact ofRat_mono (by linarith)

theorem sub_le_sub_left_of_finite (hx : x.IsNum) (hy : y.IsFinite) (hz : z.IsFinite)
    (h : y.val ≤ z.val) : x - z ≤ x - y :=
  add_le_add_left_of_finite hx hz.neg hy.neg (by rw [hz.val_neg, hy.val_neg]; exact neg_le_neg h)

/-- Adding a zero changes at most the sign of a zero. -/
theorem key_add_isZero (hx : x.IsNum) (hz : z.IsZero) : (x + z).key = x.key := by
  obtain ⟨t, b, rfl⟩ := hz.exists_fin
  rcases x with _ | s | ⟨s, a⟩
  · exact absurd rfl hx
  · rfl
  · have hx' : (fin s a : Flt fmt).IsFinite := trivial
    obtain ⟨hrep, hlt⟩ := hx'.representable
    obtain ⟨hf, hval⟩ := val_ofRat_of_representable hrep hlt
    rw [key_add hx' (hz.bounded 0).isFinite, hz.val, add_zero, hf.key_eq, hval, hx'.key_eq]

/-- A sum compares equal to a summand that does not have the opposite sign exactly when this one
swallows the other. -/
theorem key_add_eq_iff (hx : x.IsFinite) (hy : y.IsFinite) (h : 0 ≤ x.val * y.val) :
    (x + y).key = x.key ↔ fmt.Swallows |x.val| |y.val| := by
  have habs : |x.val + y.val| = |x.val| + |y.val| := by
    rw [abs_add_eq_add_abs_iff]
    exact mul_nonneg_iff.1 h
  have hsign : 0 ≤ (x.val + y.val) * x.val := by nlinarith [mul_self_nonneg x.val]
  rw [key_add hx hy, key_ofRat_eq_iff hx hsign, habs,
    FloatFormat.roundMag_add_eq_iff (abs_nonneg _) hx.representable.1 (abs_nonneg _)]

theorem add_nan (x : Flt fmt) : x + nan = nan := by
  rcases x with _ | _ | _ <;> rfl

/-- Numbers with one key have sums with one key. -/
theorem key_add_congr (z : Flt fmt) (h : x.key = y.key) : (x + z).key = (y + z).key := by
  by_cases hx : x.IsFinite
  · obtain ⟨hy, hval⟩ := hx.of_key_eq h.symm
    rcases z with _ | t | ⟨t, b⟩
    · rw [add_nan, add_nan]
    · obtain ⟨s, a, rfl⟩ := hx.exists_fin
      obtain ⟨u, c, rfl⟩ := hy.exists_fin
      rfl
    · have hz : (fin t b : Flt fmt).IsFinite := trivial
      rw [key_add hx hz, key_add hy hz, hval]
  · rw [eq_of_key_eq hx h]

theorem sub_self_isZero (hx : x.IsFinite) : (x - x).IsZero := by
  obtain ⟨s, a, rfl⟩ := hx.exists_fin
  show (if signed s a + signed (!s) a = 0 then ofSign (s && !s) 0
    else ofRat (signed s a + signed (!s) a) : Flt fmt).IsZero
  rw [signed_not, add_neg_cancel, if_pos rfl]
  exact isZero_ofSign_zero _

theorem val_sub_le_zero (hx : x.IsFinite) (hy : y.IsFinite) (h : x.val ≤ y.val) :
    x - y ≤ ofRat 0 := by
  have hkey : (x - y).key = (ofRat (x.val + (-y).val) : Flt fmt).key := key_add hx hy.neg
  rw [le_congr hkey rfl, hy.val_neg]
  exact ofRat_mono (by linarith)

theorem key_zero_add (hz : z.IsZero) : (z + x).key = x.key := by
  rcases x with _ | s | ⟨s, a⟩
  · rw [add_nan]
  · obtain ⟨t, b, rfl⟩ := hz.exists_fin
    rfl
  · have hx : (fin s a : Flt fmt).IsFinite := trivial
    have hzf := (hz.bounded 0).isFinite
    rw [← key_add_isZero hx.isNum hz, key_add hzf hx, key_add hx hzf, add_comm]

/-! ## Products -/

theorem key_mul (hx : x.IsFinite) (hy : y.IsFinite) :
    (x * y).key = (ofRat (x.val * y.val) : Flt fmt).key := by
  obtain ⟨s, a, rfl⟩ := hx.exists_fin
  obtain ⟨t, b, rfl⟩ := hy.exists_fin
  show (ofSign (s ^^ t) (a * b) : Flt fmt).key = (ofRat (signed s a * signed t b)).key
  rw [signed_mul, key_ofSign (mul_nonneg a.2.1 b.2.1)]

theorem key_div (hx : x.IsFinite) (hy : y.IsFinite) (hy0 : y.val ≠ 0) :
    (x / y).key = (ofRat (x.val / y.val) : Flt fmt).key := by
  obtain ⟨s, a, rfl⟩ := hx.exists_fin
  obtain ⟨t, b, rfl⟩ := hy.exists_fin
  have hb : (b : ℚ) ≠ 0 := fun hb => hy0 (isZero_iff.1 (show (fin t b).IsZero from hb)).2
  show (if b.1 = 0 then (if a.1 = 0 then nan else inf (s ^^ t)) else ofSign (s ^^ t) (a / b) :
    Flt fmt).key = (ofRat (signed s a / signed t b)).key
  rw [if_neg hb, signed_div, key_ofSign (div_nonneg a.2.1 b.2.1)]

theorem IsZero.mul_finite (hz : z.IsZero) (hx : x.IsFinite) : (z * x).IsZero := by
  obtain ⟨s, a, rfl⟩ := hz.exists_fin
  obtain ⟨t, b, rfl⟩ := hx.exists_fin
  have ha : (a : ℚ) = 0 := hz
  show (ofSign (s ^^ t) (a * b) : Flt fmt).IsZero
  rw [ha, zero_mul]
  exact isZero_ofSign_zero _

/-- A product of numbers that are not zero is a number. -/
theorem mul_isNum_of_ne (hx : x.IsNum) (hy : y.IsNum) (hx0 : ¬ x.IsZero) (hy0 : ¬ y.IsZero) :
    (x * y).IsNum := by
  rcases x with _ | s | ⟨s, a⟩
  · exact absurd rfl hx
  · rcases y with _ | t | ⟨t, b⟩
    · exact absurd rfl hy
    · show (inf (s ^^ t) : Flt fmt) ≠ nan
      simp
    · show (if b.1 = 0 then nan else inf (s ^^ t) : Flt fmt) ≠ nan
      rw [if_neg (show ¬ (b : ℚ) = 0 from hy0)]
      simp
  · rcases y with _ | t | ⟨t, b⟩
    · exact absurd rfl hy
    · show (if a.1 = 0 then nan else inf (s ^^ t) : Flt fmt) ≠ nan
      rw [if_neg (show ¬ (a : ℚ) = 0 from hx0)]
      simp
    · exact ofSign_isNum _ _

theorem inf_mul_isZero (s : Bool) (hz : z.IsZero) : inf s * z = nan := by
  obtain ⟨t, b, rfl⟩ := hz.exists_fin
  exact if_pos hz

theorem not_isZero_of_lt (hz : z.IsZero) (h : z < x ∨ x < z) : ¬ x.IsZero := by
  intro hx
  have hkey : z.key = x.key := hz.key_eq.trans hx.key_eq.symm
  rcases h with h | h
  · exact not_lt_of_key_eq hkey h
  · exact not_lt_of_key_eq hkey.symm h

/-- A positive number times one that is not positive is not positive, infinite or not. -/
theorem mul_le_zero (hx : x.IsFinite) (h0 : ofRat 0 < x) (hy : y.IsFinite) (h : y.val ≤ 0) :
    x * y ≤ ofRat 0 := by
  have hz : (ofRat 0 : Flt fmt).IsZero := isZero_ofRat_zero
  have hpos : 0 < x.val := by
    rw [lt_iff_not_le (hz.bounded 0).isFinite.isNum hx.isNum,
      le_iff_val hx (hz.bounded 0).isFinite, hz.val, not_le] at h0
    exact h0
  obtain ⟨s, a, rfl⟩ := hx.exists_fin
  obtain ⟨t, b, rfl⟩ := hy.exists_fin
  have hs : s = false := by
    cases s with
    | false => rfl
    | true => exact absurd hpos (not_lt.2 (neg_nonpos.2 a.2.1))
  subst hs
  show (ofSign (false ^^ t) (a * b) : Flt fmt) ≤ ofSign false 0
  cases t with
  | true => exact ofSign_true_le_false _ _
  | false =>
    have hb : (b : ℚ) = 0 := le_antisymm h b.2.1
    rw [hb, mul_zero]
    exact le_refl_of_isNum (ofSign_isNum _ _)

/-! ## Finite numbers with a plus sign -/

def Plus : Flt fmt → Prop
  | fin s _ => s = false
  | _ => False

instance : DecidablePred (Plus : Flt fmt → Prop)
  | nan => .isFalse fun h => h
  | inf _ => .isFalse fun h => h
  | fin s _ => inferInstanceAs (Decidable (s = false))

theorem Plus.exists_fin (h : x.Plus) : ∃ a, x = fin false a := by
  rcases x with _ | _ | ⟨s, a⟩
  · exact h.elim
  · exact h.elim
  · exact ⟨a, by rw [show s = false from h]⟩

theorem Plus.isFinite (h : x.Plus) : x.IsFinite := by
  obtain ⟨a, rfl⟩ := h.exists_fin
  trivial

theorem Plus.val_nonneg (h : x.Plus) : 0 ≤ x.val := by
  obtain ⟨a, rfl⟩ := h.exists_fin
  exact a.2.1

theorem plus_ofSign {q : ℚ} (h : (ofSign false q : Flt fmt).IsFinite) :
    (ofSign false q : Flt fmt).Plus := by
  unfold ofSign at h ⊢
  split_ifs at h ⊢
  · rfl
  · exact h.elim

theorem Plus.mul (hx : x.Plus) (hy : y.Plus) (h : (x * y).IsFinite) : (x * y).Plus := by
  obtain ⟨a, rfl⟩ := hx.exists_fin
  obtain ⟨b, rfl⟩ := hy.exists_fin
  exact plus_ofSign h

theorem Plus.div (hx : x.Plus) (hy : y.Plus) (h : (x / y).IsFinite) : (x / y).Plus := by
  obtain ⟨a, rfl⟩ := hx.exists_fin
  obtain ⟨b, rfl⟩ := hy.exists_fin
  have hdiv : (fin false a / fin false b : Flt fmt) =
      if b.1 = 0 then (if a.1 = 0 then nan else inf false) else ofSign false (a / b) := rfl
  rw [hdiv] at h ⊢
  split_ifs at h ⊢
  · exact h.elim
  · exact h.elim
  · exact plus_ofSign h

/-- A quotient of such numbers is the exact one, rounded. -/
theorem Plus.div_eq (hx : x.Plus) (hy : y.Plus) (hy0 : 0 < y.val) :
    x / y = ofRat (x.val / y.val) := by
  obtain ⟨a, rfl⟩ := hx.exists_fin
  obtain ⟨b, rfl⟩ := hy.exists_fin
  have hb : (0 : ℚ) < b := hy0
  have hnonneg : 0 ≤ (a : ℚ) / b := div_nonneg a.2.1 hb.le
  show (if b.1 = 0 then (if a.1 = 0 then nan else inf false) else ofSign false (a / b) : Flt fmt) =
    ofSign (decide ((a : ℚ) / b < 0)) (a / b)
  rw [if_neg hb.ne', decide_eq_false (not_lt.2 hnonneg)]

/-- Operations on numbers with a plus sign keep the order. -/
theorem Plus.mul_le_mul_right (hx : x.Plus) (hy : y.Plus) (hz : z.Plus) (h : x.val ≤ y.val) :
    x * z ≤ y * z := by
  obtain ⟨a, rfl⟩ := hx.exists_fin
  obtain ⟨b, rfl⟩ := hy.exists_fin
  obtain ⟨c, rfl⟩ := hz.exists_fin
  have hab : (a : ℚ) ≤ b := h
  show (ofSign false (a * c) : Flt fmt) ≤ ofSign false (b * c)
  apply ofSign_false_mono
  rw [abs_of_nonneg (mul_nonneg a.2.1 c.2.1), abs_of_nonneg (mul_nonneg b.2.1 c.2.1)]
  exact mul_le_mul_of_nonneg_right hab c.2.1

theorem Plus.div_le_div_right (hx : x.Plus) (hy : y.Plus) (hz : z.Plus) (hz0 : 0 < z.val)
    (h : x.val ≤ y.val) : x / z ≤ y / z := by
  obtain ⟨a, rfl⟩ := hx.exists_fin
  obtain ⟨b, rfl⟩ := hy.exists_fin
  obtain ⟨c, rfl⟩ := hz.exists_fin
  have hab : (a : ℚ) ≤ b := h
  have hc : (0 : ℚ) < c := hz0
  show (if c.1 = 0 then (if a.1 = 0 then nan else inf false) else ofSign false (a / c) : Flt fmt) ≤
    if c.1 = 0 then (if b.1 = 0 then nan else inf false) else ofSign false (b / c)
  rw [if_neg hc.ne', if_neg hc.ne']
  apply ofSign_false_mono
  rw [abs_of_nonneg (div_nonneg a.2.1 hc.le), abs_of_nonneg (div_nonneg b.2.1 hc.le)]
  exact div_le_div_of_nonneg_right hab hc.le

/-! ## Directions -/

theorem zero_le_iff (hx : x.IsFinite) : ofRat 0 ≤ x ↔ 0 ≤ x.val := by
  have hz : (ofRat 0 : Flt fmt).IsZero := isZero_ofRat_zero
  rw [le_iff_val (hz.bounded 0).isFinite hx, hz.val]

theorem le_zero_iff (hx : x.IsFinite) : x ≤ ofRat 0 ↔ x.val ≤ 0 := by
  have hz : (ofRat 0 : Flt fmt).IsZero := isZero_ofRat_zero
  rw [le_iff_val hx (hz.bounded 0).isFinite, hz.val]

theorem IsFinite.not_le_inf (hx : x.IsFinite) : ¬ x ≤ inf true := by
  obtain ⟨s, a, rfl⟩ := hx.exists_fin
  simp [le_def, key]

theorem IsFinite.not_inf_le (hx : x.IsFinite) : ¬ inf false ≤ x := by
  obtain ⟨s, a, rfl⟩ := hx.exists_fin
  simp [le_def, key]

theorem isFinite_zero : (ofRat 0 : Flt fmt).IsFinite := (isZero_ofRat_zero.bounded 0).isFinite

theorem eq_inf_of_nonneg (hx : ¬ x.IsFinite) (h : ofRat 0 ≤ x) : x = inf false := by
  rcases x with _ | (_ | _) | _
  · exact absurd rfl (isNum_of_le h).2
  · rfl
  · exact absurd h isFinite_zero.not_le_inf
  · exact absurd trivial hx

theorem eq_inf_of_nonpos (hx : ¬ x.IsFinite) (h : x ≤ ofRat 0) : x = inf true := by
  rcases x with _ | (_ | _) | _
  · exact absurd rfl (isNum_of_le h).1
  · exact absurd h isFinite_zero.not_inf_le
  · rfl
  · exact absurd trivial hx

theorem not_isFinite_add (hx : x.IsFinite) (hy : ¬ y.IsFinite) : ¬ (x + y).IsFinite := by
  obtain ⟨s, a, rfl⟩ := hx.exists_fin
  rcases y with _ | t | _
  · exact id
  · exact id
  · exact absurd trivial hy

/-- Adding a number in the direction of the other one does not go back. -/
theorem self_le_add (hx : ofRat 0 ≤ x) (hy : ofRat 0 ≤ y) : x ≤ x + y := by
  have hnum := (isNum_of_le hx).2
  by_cases hx' : x.IsFinite
  · by_cases hy' : y.IsFinite
    · rw [zero_le_iff hy'] at hy
      rw [le_congr hx'.key_ofRat_val.symm (key_add hx' hy')]
      exact ofRat_mono (by linarith)
    · obtain ⟨s, a, rfl⟩ := hx'.exists_fin
      rw [eq_inf_of_nonneg hy' hy]
      exact hnum.le_inf
  · rw [eq_inf_of_nonneg hx' hx]
    by_cases hy' : y.IsFinite
    · obtain ⟨s, a, rfl⟩ := hy'.exists_fin
      exact IsNum.le_inf nofun
    · rw [eq_inf_of_nonneg hy' hy]
      exact IsNum.le_inf nofun

theorem add_le_self (hx : x ≤ ofRat 0) (hy : y ≤ ofRat 0) : x + y ≤ x := by
  have hnum := (isNum_of_le hx).1
  by_cases hx' : x.IsFinite
  · by_cases hy' : y.IsFinite
    · rw [le_zero_iff hy'] at hy
      rw [le_congr (key_add hx' hy') hx'.key_ofRat_val.symm]
      exact ofRat_mono (by linarith)
    · obtain ⟨s, a, rfl⟩ := hx'.exists_fin
      rw [eq_inf_of_nonpos hy' hy]
      exact hnum.inf_le
  · rw [eq_inf_of_nonpos hx' hx]
    by_cases hy' : y.IsFinite
    · obtain ⟨s, a, rfl⟩ := hy'.exists_fin
      exact IsNum.inf_le nofun
    · rw [eq_inf_of_nonpos hy' hy]
      exact IsNum.inf_le nofun

/-- A product with a number that is not negative has the direction of the other factor. -/
theorem mul_direction (hx : x.IsFinite) (hx0 : 0 ≤ x.val) (hy : y.IsFinite) :
    (0 ≤ y.val → ofRat 0 ≤ x * y) ∧ (y.val ≤ 0 → x * y ≤ ofRat 0) := by
  rw [le_congr rfl (key_mul hx hy), le_congr (key_mul hx hy) rfl]
  exact ⟨fun h => ofRat_mono (mul_nonneg hx0 h),
    fun h => ofRat_mono (mul_nonpos_of_nonneg_of_nonpos hx0 h)⟩

/-- A quotient by a positive number has the direction of the dividend. -/
theorem div_direction (hx : x.IsFinite) (hy : y.IsFinite) (hy0 : 0 < y.val) :
    (0 ≤ x.val → ofRat 0 ≤ x / y) ∧ (x.val ≤ 0 → x / y ≤ ofRat 0) := by
  have hkey := key_div hx hy hy0.ne'
  rw [le_congr rfl hkey, le_congr hkey rfl]
  exact ⟨fun h => ofRat_mono (div_nonneg h hy0.le),
    fun h => ofRat_mono (div_nonpos_of_nonpos_of_nonneg h hy0.le)⟩

theorem ofSign_mag (s : Bool) (a : fmt.Mag) : (ofSign s a : Flt fmt) = fin s a := by
  have hround : fmt.roundMag |(a : ℚ)| = a := by
    rw [abs_of_nonneg a.2.1]
    exact a.2.2.2.roundMag_eq a.2.1
  have hlt : fmt.roundMag |(a : ℚ)| < 2 ^ fmt.emax := hround.symm ▸ a.2.2.1
  unfold ofSign
  rw [dif_pos hlt]
  congr 1
  exact Subtype.ext hround

theorem IsFinite.sub_zero (hx : x.IsFinite) : x - ofRat 0 = x := by
  obtain ⟨s, a, rfl⟩ := hx.exists_fin
  have hfin : (ofSign false 0 : Flt fmt).IsFinite := isFinite_zero
  obtain ⟨b, hb⟩ := (plus_ofSign hfin).exists_fin
  have hz : (fin false b : Flt fmt).IsZero := hb ▸ isZero_ofRat_zero
  have hsum : signed s (a : ℚ) + signed true b = signed s a := by
    have hb0 : signed true (b : ℚ) = 0 := by
      rw [show (b : ℚ) = 0 from hz]
      simp [signed]
    rw [hb0, add_zero]
  have hzero : (ofRat 0 : Flt fmt) = fin false b := hb
  rw [hzero]
  show (if signed s (a : ℚ) + signed true b = 0 then ofSign (s && true) 0
    else ofRat (signed s (a : ℚ) + signed true b) : Flt fmt) = fin s a
  rw [hsum]
  split_ifs with h0
  · have ha : (a : ℚ) = 0 := by rwa [← abs_eq_zero, abs_signed, abs_eq_zero] at h0
    rw [Bool.and_true, ← ha]
    exact ofSign_mag s a
  · have hs : decide (signed s (a : ℚ) < 0) = s := by
      cases s with
      | false => exact decide_eq_false (not_lt.2 a.2.1)
      | true =>
        refine decide_eq_true (lt_of_le_of_ne ?_ h0)
        exact neg_nonpos.2 a.2.1
    have habs : (ofSign s (signed s (a : ℚ)) : Flt fmt) = ofSign s a := by
      simp only [ofSign, abs_signed]
    unfold ofRat
    rw [hs, habs]
    exact ofSign_mag s a

/-! ## Conversion to an integer -/

theorem le_trunc_iff {n : ℤ} (hn : 0 < n) : n ≤ x.trunc ↔ (n : ℚ) ≤ x.val := by
  unfold trunc
  split_ifs with h
  · exact Int.le_floor
  · have hx0 : x.val < 0 := not_le.1 h
    have hceil : ⌈x.val⌉ ≤ 0 := Int.ceil_le.2 (by exact_mod_cast hx0.le)
    have hn' : (0 : ℚ) < n := by exact_mod_cast hn
    exact iff_of_false (by omega) (by linarith)

end Flt

end Lib
