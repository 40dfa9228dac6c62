import EdnaDrone.Lib.Circle
import EdnaDrone.Proofs.FloatProofs
import EdnaDrone.Proofs.KalmanProofs

/-!
# Fusion near the branch cut

The pitch of `mpu6050_read` jumps by 360° at inversion, and `kalman_update` subtracts angles as they
are. The returned angle moves toward the measurement along the line, so around the circle it can move
the other way; the gain decides from which difference on. In binary32 the step along the line still ends
between the two angles, and what counts is how far it gets.
-/

namespace EdnaDrone

open Lib CNum

open Lib.Flt hiding ofRat abs

section Exact

variable {K : Type} [Field K] [LinearOrder K] [IsStrictOrderedRing K] {k : KalmanState K}

variable [FloorRing K]

end Exact

/-! ## Steps in binary32 -/

section Float

variable {p m : CFloat} {g : ℚ}

/-- The value of the binary32 number nearest to a rational. -/
def rounded (q : ℚ) : ℚ := (Flt.ofRat q : CFloat).val

theorem val_of_key {x : CFloat} {q : ℚ} (hx : x.key = (Flt.ofRat q : CFloat).key) {k : ℤ} (hk : -149 ≤ k)
    (hk' : k < 128) (hq : |q| ≤ 2 ^ k) : x.IsFinite ∧ x.val = rounded q :=
  (bounded_ofRat (k := k) hk hk' hq).isFinite.of_key_eq hx

theorem rounded_mono {q r : ℚ} {k : ℤ} (hk : -149 ≤ k) (hk' : k < 128) (hq : |q| ≤ 2 ^ k)
    (hr : |r| ≤ 2 ^ k) (h : q ≤ r) : rounded q ≤ rounded r := by
  have hqb : Bounded k (Flt.ofRat q : CFloat) := bounded_ofRat hk hk' hq
  have hrb : Bounded k (Flt.ofRat r : CFloat) := bounded_ofRat hk hk' hr
  exact (le_iff_val hqb.isFinite hrb.isFinite).1 (ofRat_mono h)

/-- The variance of the predicted angle is a number between 0 and 64, and that of a measurement is the
one `kalman_init` sets. -/
structure KalmanState.GainOk (k : KalmanState CFloat) : Prop where
  p00 : k.p00.IsFinite ∧ 0 ≤ k.p00.val ∧ k.p00.val ≤ 64
  rMeasure : k.rMeasure = ofRat (3 / 100)

theorem KalmanState.GainOk.gain0 {k : KalmanState CFloat} (h : k.GainOk) :
    k.gain0.IsFinite ∧ 0 ≤ k.gain0.val ∧ k.gain0.val ≤ 1 - 1 / 2 ^ 16 := by
  obtain ⟨⟨hf, h0, h1⟩, hR⟩ := h
  have hrf : k.rMeasure.IsFinite := by rw [hR]; decide +kernel
  have hr0 : (299 : ℚ) / 10000 ≤ k.rMeasure.val := by rw [hR]; decide +kernel
  have hr1 : k.rMeasure.val ≤ (301 : ℚ) / 10000 := by rw [hR]; decide +kernel
  have hsum : |k.p00.val + k.rMeasure.val| ≤ 2 ^ (7 : ℤ) := by
    rw [abs_of_nonneg (by linarith)]
    norm_num
    linarith
  obtain ⟨hsf, hsv⟩ := val_of_key (key_add hf hrf) (by norm_num) (by norm_num) hsum
  have hserr : |rounded (k.p00.val + k.rMeasure.val) - (k.p00.val + k.rMeasure.val)| ≤
      2 ^ ((7 : ℤ) - 24) := (abs_val_ofRat_sub_le (by decide) (by decide) hsum).2
  rw [← hsv] at hserr
  obtain ⟨he1, he2⟩ := abs_le.1 hserr
  set s := (k.p00 + k.rMeasure).val
  have hs : k.p00.val + 1 / 64 ≤ s ∧ s ≤ 65 := by
    norm_num at he1 he2
    constructor <;> linarith
  have hs0 : 0 < s := by linarith
  have hq : k.p00.val / s ≤ 1 - 1 / 5000 := by
    rw [div_le_iff₀ hs0]
    linarith
  have hq0 : 0 ≤ k.p00.val / s := div_nonneg h0 hs0.le
  have hqabs : |k.p00.val / s| ≤ 2 ^ (0 : ℤ) := by
    rw [abs_of_nonneg hq0]
    norm_num
    linarith
  obtain ⟨hgf, hgv⟩ := val_of_key (key_div hf hsf hs0.ne') (by norm_num) (by norm_num) hqabs
  have hgerr : |rounded (k.p00.val / s) - k.p00.val / s| ≤ 2 ^ ((0 : ℤ) - 24) :=
    (abs_val_ofRat_sub_le (by decide) (by decide) hqabs).2
  have hg0 : 0 ≤ rounded (k.p00.val / s) := by
    have h := rounded_mono (k := 0) (by norm_num) (by norm_num) (by simp) hqabs hq0
    rwa [show rounded 0 = 0 from val_ofRat_zero] at h
  refine ⟨hgf, hgv ▸ hg0, ?_⟩
  show (k.p00 / (k.p00 + k.rMeasure)).val ≤ _
  rw [hgv]
  have hg1 := (le_abs_self _).trans hgerr
  norm_num at hg1 ⊢
  linarith

/-- An angle in degrees, as `atan2f` gives it. -/
def InTurn (x : CFloat) : Prop := x.IsFinite ∧ -180 ≤ x.val ∧ x.val ≤ 180

theorem InTurn.bounded {x : CFloat} (h : InTurn x) : Bounded 8 x := by
  obtain ⟨hf, h0, h1⟩ := h
  obtain ⟨s, a, rfl⟩ := hf.exists_fin
  have habs : |signed s (a : ℚ)| ≤ 180 := abs_le.2 ⟨h0, h1⟩
  rw [abs_signed, abs_of_nonneg a.2.1] at habs
  exact habs.trans (by norm_num)

end Float

/-! ## The law -/

instance (x : CFloat) : Decidable (InTurn x) := inferInstanceAs (Decidable (_ ∧ _ ∧ _))

end EdnaDrone
