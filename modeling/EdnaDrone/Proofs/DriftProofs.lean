import EdnaDrone.Proofs.ThrottleProofs
import EdnaDrone.Proofs.YawProofs

/-!
# What the throttle accumulator loses

The rate of a frame is between 1 and 2 µs, and its fraction is cut off before it is added. Only a stick
pushed all the way up, which reads -512, has the rate 2; all the way down it reads 511. So every other
frame moves the throttle by 1 µs, and what is cut off adds up.
-/

namespace EdnaDrone

open Lib CNum

open Lib.Flt hiding ofRat abs

/-! ## The rate of a frame -/

/-- The rate that `config.h` documents for a position of the stick, in microseconds per frame. -/
def documentedRate (raw : ℤ) : ℚ :=
  throttleAccelMinUsPerCall +
    |(raw : ℚ)| / stickMax * (throttleAccelMaxUsPerCall - throttleAccelMinUsPerCall)

/-- What a frame adds. -/
def frameRate (raw : ℤ) : ℤ := if raw = -512 then 2 else 1

/-- The counts of a deflection that is not the full one. -/
def shortCounts (raw : ℤ) : ℤ := if raw = -512 then 0 else |raw|

theorem documentedRate_eq (raw : ℤ) :
    documentedRate raw = frameRate raw + (shortCounts raw : ℚ) / 512 := by
  unfold documentedRate frameRate shortCounts
  simp only [throttleAccelMinUsPerCall, throttleAccelMaxUsPerCall, stickMax]
  split
  · rename_i h
    rw [h]
    norm_num
  · push_cast
    ring

theorem fabs_val {x : CFloat} (h : x.IsFinite) : (fabs x).val = |x.val| := by
  obtain ⟨s, a, rfl⟩ := h.exists_fin
  show (a : ℚ) = |signed s a|
  rw [abs_signed, abs_of_nonneg a.2.1]

theorem fabs_plus {x : CFloat} (h : x.IsFinite) : Plus (fabs x) := by
  obtain ⟨s, a, rfl⟩ := h.exists_fin
  rfl

theorem rateShare_le {x y : CFloat} (hx : Bounded 9 x) (hy : Bounded 9 y) (h : |x.val| ≤ |y.val|) :
    rateShare x ≤ rateShare y := by
  have hmax : Plus (ofInt stickMax : CFloat) ∧ 0 < (ofInt stickMax : CFloat).val := by decide +kernel
  have hone : Plus (ofInt (throttleAccelMaxUsPerCall - throttleAccelMinUsPerCall) : CFloat) := by
    decide +kernel
  have hs : (2 : ℚ) ^ (9 : ℤ) ≤ |(ofInt stickMax : CFloat).val| := by decide +kernel
  have hdiv : ∀ z : CFloat, Bounded 9 z → Plus (fabs z / ofInt stickMax) := by
    intro z hz
    have habs : Bounded 9 (fabs z) := by
      obtain ⟨s, a, rfl⟩ := hz.exists_fin
      exact hz
    have hq : Bounded 0 (fabs z / ofInt stickMax) :=
      habs.div (j := 9) (k := 9) (by decide) (by decide) (by decide +kernel) hs
    exact (fabs_plus hz.isFinite).div hmax.1 hq.isFinite
  have hle : fabs x / ofInt stickMax ≤ fabs y / ofInt stickMax := by
    apply (fabs_plus hx.isFinite).div_le_div_right (fabs_plus hy.isFinite) hmax.1 hmax.2
    rwa [fabs_val hx.isFinite, fabs_val hy.isFinite]
  rw [le_iff_val (Plus.isFinite (hdiv x hx)) (Plus.isFinite (hdiv y hy))] at hle
  exact Plus.mul_le_mul_right (hdiv x hx) (hdiv y hy) hone hle

theorem throttleRate_isFinite {x : CFloat} (hx : Bounded 9 x) : (throttleRate x).IsFinite := by
  obtain ⟨hb, -⟩ := rateShare_spec le_rfl (by norm_num) hx
  have hmin : Bounded 0 (ofInt throttleAccelMinUsPerCall : CFloat) := by decide +kernel
  exact (hmin.add (k := 0) (by decide) (by decide) hb).isFinite

/-- Short of the full deflection the rate is below 2. -/
theorem toInt_throttleRate_of_short {x : CFloat} (hx : Bounded 9 x) (h : |x.val| ≤ 511) :
    toInt (throttleRate x) = 1 := by
  have h511 : Bounded 9 (ofInt 511 : CFloat) ∧ |(ofInt 511 : CFloat).val| = 511 ∧
      toInt (throttleRate (ofInt 511 : CFloat)) = 1 := by decide +kernel
  have hmin : (ofInt throttleAccelMinUsPerCall : CFloat).IsFinite := by decide +kernel
  have hshare := rateShare_le hx h511.1 (by rwa [h511.2.1])
  have hle : throttleRate x ≤ throttleRate (ofInt 511) := by
    obtain ⟨hbx, -⟩ := rateShare_spec le_rfl (by norm_num) hx
    obtain ⟨hby, -⟩ := rateShare_spec le_rfl (by norm_num) h511.1
    exact add_le_add_left_of_finite hmin.isNum hbx.isFinite hby.isFinite
      ((le_iff_val hbx.isFinite hby.isFinite).1 hshare)
  rw [le_iff_val (throttleRate_isFinite hx) (throttleRate_isFinite h511.1)] at hle
  have hlow : 1 ≤ toInt (throttleRate x) := le_throttleRate le_rfl (by norm_num) hx
  have hhigh : ¬ 2 ≤ trunc (throttleRate x) := by
    intro h2
    have h3 : (2 : ℤ) ≤ trunc (throttleRate (ofInt 511 : CFloat)) :=
      (le_trunc_iff (by decide)).2 (((le_trunc_iff (by decide)).1 h2).trans hle)
    have h4 : trunc (throttleRate (ofInt 511 : CFloat)) = 1 := h511.2.2
    omega
  have hlow' : 1 ≤ trunc (throttleRate x) := hlow
  show trunc (throttleRate x) = 1
  omega

/-- The rate that a frame adds, for every position of the stick. -/
theorem toInt_throttleRate_applyDeadband {raw : ℤ} (h : -512 ≤ raw ∧ raw ≤ 511) :
    toInt (throttleRate (applyDeadband (-raw) : CFloat)) = frameRate raw := by
  unfold frameRate
  split
  · rename_i hraw
    rw [hraw]
    decide +kernel
  · rename_i hraw
    have habs : |(-raw : ℤ)| ≤ 511 := by
      rw [abs_neg, abs_le]
      omega
    have hb : Bounded 9 (applyDeadband (-raw) : CFloat) := bounded_applyDeadband (by
      simp only [stickMax]
      omega)
    refine toInt_throttleRate_of_short hb ?_
    unfold applyDeadband
    split
    · rw [show (ofRat 0 : CFloat).val = 0 from val_ofRat_zero, abs_zero]
      norm_num
    · rw [(val_ofInt (habs.trans (by norm_num))).2]
      exact_mod_cast habs

/-! ## One frame -/

/-- The steps of a stick held beyond the deadband, up or down: gamepad frames without `BUTTON_X`, and
whatever the other tasks do meanwhile. -/
def Event.Holds (up : Bool) : Event CFloat → Prop
  | .gamepad ctl _ => ctl.pressesX = false ∧ ctl.gamepad.InRange ∧
      if up then ctl.gamepad.axisY ≤ -stickDeadband else stickDeadband ≤ ctl.gamepad.axisY
  | .disconnected _ => False
  | _ => True

/-- The stick position of a frame. -/
def Event.stickY : Event CFloat → Option ℤ
  | .gamepad ctl _ => some ctl.gamepad.axisY
  | _ => none

/-- The direction in which the throttle moves. -/
def direction (up : Bool) : ℤ := if up then 1 else -1

/-- The frame does not reach the clamp. -/
def NoClamp (up : Bool) (s : Firmware CFloat) : Event CFloat → Prop
  | .gamepad ctl _ =>
    let us := s.ctrl.throttleUs + direction up *
      toInt (throttleRate (applyDeadband (-ctl.gamepad.axisY) : CFloat))
    (escPwmMinUs : ℤ) ≤ us ∧ us ≤ escPwmFlightMaxUs
  | _ => True

theorem clampThrottle_eq_self {us : ℤ} (h : (escPwmMinUs : ℤ) ≤ us ∧ us ≤ escPwmFlightMaxUs) :
    clampThrottle us = us := by
  unfold clampThrottle
  dsimp only
  rw [if_neg (not_lt.2 h.1), if_neg (not_lt.2 h.2)]

theorem throttleUs_step {up : Bool} {s : Firmware CFloat} {e : Event CFloat} (he : e.Holds up)
    (hc : NoClamp up s e) :
    (step s e).ctrl.throttleUs =
      s.ctrl.throttleUs + direction up * (e.stickY.toList.map frameRate).sum := by
  by_cases hgp : ∃ ctl take, e = .gamepad ctl take
  · obtain ⟨ctl, take, rfl⟩ := hgp
    obtain ⟨hx, hrange, hdir⟩ := he
    have hrate := toInt_throttleRate_applyDeadband hrange.2.1
    have hclamp := clampThrottle_eq_self hc
    have hacc : (step s (.gamepad ctl take)).ctrl.throttleUs =
        accumulateThrottle CFloat ctl.gamepad.axisY s.ctrl.throttleUs := by
      simp only [step, onGamepadData, hx, Bool.false_eq_true, if_false]
    have hsum : ((Event.gamepad ctl take).stickY.toList.map frameRate).sum =
        frameRate ctl.gamepad.axisY := by
      simp [Event.stickY]
    rw [hacc, hsum, ← hrate, ← hclamp, accumulateThrottle_cases]
    have hd : 0 < stickDeadband := by decide
    cases up with
    | true =>
      rw [if_pos rfl] at hdir
      rw [if_pos hdir, direction, if_pos rfl, one_mul]
    | false =>
      rw [if_neg Bool.false_ne_true] at hdir
      rw [if_neg (by omega), if_pos hdir, direction, if_neg Bool.false_ne_true, neg_one_mul,
        ← sub_eq_add_neg]
  · have hd : ∀ take, e ≠ .disconnected take := by
      rintro take rfl
      exact he
    have hg : ∀ ctl take, e ≠ .gamepad ctl take := fun ctl take h => hgp ⟨ctl, take, h⟩
    have hnone : e.stickY = none := by
      cases e with
      | gamepad ctl take => exact absurd rfl (hg ctl take)
      | _ => rfl
    rw [(setpoints_frame hg hd).1, hnone]
    simp

/-! ## Runs -/

/-- The stick positions of the frames of a run. -/
def stickYs (es : List (Event CFloat)) : List ℤ := es.filterMap Event.stickY

theorem throttleUs_run {up : Bool} {s : Firmware CFloat} {es : List (Event CFloat)}
    (hes : ∀ e ∈ es, e.Holds up) (hc : AllSteps step (NoClamp up) s es) :
    (runFrom step s es).ctrl.throttleUs =
      s.ctrl.throttleUs + direction up * ((stickYs es).map frameRate).sum := by
  induction es generalizing s with
  | nil => simp [stickYs]
  | cons e es ih =>
    have hstep := throttleUs_step (hes e List.mem_cons_self) hc.1
    have hrest := ih (fun x hx => hes x (List.mem_cons_of_mem _ hx)) hc.2
    rw [runFrom_cons, hrest, hstep]
    unfold stickYs
    rw [List.filterMap_cons]
    cases e.stickY with
    | none => simp
    | some y =>
      simp only [Option.toList_some, List.map_cons, List.map_nil, List.sum_cons, List.sum_nil]
      ring

/-- The documented rates of a sequence of frames: what is added, and what is cut off. -/
theorem sum_documentedRate (ys : List ℤ) :
    (ys.map documentedRate).sum =
      ((ys.map frameRate).sum : ℤ) + ((ys.map shortCounts).sum : ℤ) / (512 : ℚ) := by
  induction ys with
  | nil => simp
  | cons y ys ih =>
    rw [List.map_cons, List.sum_cons, ih, documentedRate_eq, List.map_cons, List.sum_cons,
      List.map_cons, List.sum_cons]
    push_cast
    ring

theorem sum_shortCounts_nonneg (ys : List ℤ) : 0 ≤ (ys.map shortCounts).sum := by
  apply List.sum_nonneg
  intro c hc
  obtain ⟨y, -, rfl⟩ := List.mem_map.1 hc
  unfold shortCounts
  split
  · exact le_rfl
  · exact abs_nonneg y

/-- While the stick is held in one direction and the clamp is not reached, the throttle follows the
documented rates to within 1 µs exactly as long as the deflections that are not full add up to less than
512 counts. -/
theorem throttle_follows_stick_iff (up : Bool) (s : Firmware CFloat) (es : List (Event CFloat))
    (hes : ∀ e ∈ es, e.Holds up) (hc : AllSteps step (NoClamp up) s es) :
    |((runFrom step s es).ctrl.throttleUs - s.ctrl.throttleUs : ℚ) -
        direction up * ((stickYs es).map documentedRate).sum| < 1 ↔
      ((stickYs es).map shortCounts).sum < 512 := by
  have hnonneg := sum_shortCounts_nonneg (stickYs es)
  have hdir : |(direction up : ℚ)| = 1 := by
    cases up <;> norm_num [direction]
  rw [throttleUs_run hes hc, sum_documentedRate]
  generalize ((stickYs es).map frameRate).sum = added
  generalize ((stickYs es).map shortCounts).sum = lost at hnonneg
  have hdiff : ((s.ctrl.throttleUs + direction up * added : ℤ) - s.ctrl.throttleUs : ℚ) -
      direction up * ((added : ℚ) + (lost : ℚ) / 512) = -(direction up * ((lost : ℚ) / 512)) := by
    push_cast
    ring
  have hlost : (0 : ℚ) ≤ (lost : ℚ) / 512 := by
    have : (0 : ℚ) ≤ lost := by exact_mod_cast hnonneg
    positivity
  rw [hdiff, abs_neg, abs_mul, hdir, one_mul, abs_of_nonneg hlost, div_lt_one (by norm_num)]
  exact_mod_cast Iff.rfl

/-- One frame with the stick pushed all the way up. -/
theorem throttle_follows_stick_iff_full :
    |((run (F := CFloat) 3 [.gamepad climbFrame true]).ctrl.throttleUs -
        (boot (F := CFloat) 3).ctrl.throttleUs : ℚ) -
        direction true * ((stickYs [.gamepad climbFrame true]).map documentedRate).sum| < 1 := by
  have hes : ∀ e ∈ [(.gamepad climbFrame true : Event CFloat)], e.Holds true := by
    intro e he
    rw [List.mem_singleton.1 he]
    refine ⟨by decide, ?_, by decide⟩
    simp [UniGamepad.InRange, climbFrame]
  exact (throttle_follows_stick_iff true (boot 3) [.gamepad climbFrame true] hes
    ⟨⟨by decide +kernel, by decide +kernel⟩, trivial⟩).2 (by decide)

/-- A frame with the stick pulled all the way down. -/
def descentFrame : UniController := ⟨.gamepad, ⟨0, 511, 0, 0, 0⟩⟩

/-- Two such frames lower the throttle by 2 µs, and the documented rates add up to nearly 4 µs. -/
theorem descent_lags_behind :
    ¬ ∀ (up : Bool) (s : Firmware CFloat) (es : List (Event CFloat)), (∀ e ∈ es, e.Holds up) →
      AllSteps step (NoClamp up) s es →
      |((runFrom step s es).ctrl.throttleUs - s.ctrl.throttleUs : ℚ) -
        direction up * ((stickYs es).map documentedRate).sum| < 1 := by
  intro h
  have h1 := h false (boot 3) [.gamepad descentFrame true, .gamepad descentFrame true]
    (by
      intro e he
      have heq : e = .gamepad descentFrame true := by simpa using he
      rw [heq]
      refine ⟨by decide, ?_, by decide⟩
      simp [UniGamepad.InRange, descentFrame])
    ⟨⟨by decide +kernel, by decide +kernel⟩, ⟨by decide +kernel, by decide +kernel⟩, trivial⟩
  revert h1
  decide +kernel

end EdnaDrone
