import EdnaDrone.Lib.FltOrder
import EdnaDrone.Proofs.InterlockProofs
import EdnaDrone.Proofs.FloatProofs

/-!
# The throttle after a kill

A normal frame clears the kill flag, so what keeps the motors stopped after a kill is the accumulator:
the kill has reset it to the arm pulse, and a frame raises it by 2 µs at most. The published throttle
is never above what the accumulator has been since the kill.
-/

namespace EdnaDrone

open Lib CNum

open Lib.Flt hiding ofRat abs

/-! ## The throttle rate -/

/-- The part of the rate that grows with the deflection. -/
def rateShare (val : CFloat) : CFloat :=
  fabs val / ofInt stickMax * ofInt (throttleAccelMaxUsPerCall - throttleAccelMinUsPerCall)

theorem rateShare_spec {val : CFloat} {k : ℤ} (hk : 9 ≤ k) (hk' : k < 128) (h : Bounded k val) :
    Bounded (k - 9) (rateShare val) ∧ Plus (rateShare val) := by
  have habs : Bounded k (fabs val) ∧ Plus (fabs val) := by
    obtain ⟨s, a, rfl⟩ := h.exists_fin
    exact ⟨h, rfl⟩
  have hs : (2 : ℚ) ^ (9 : ℤ) ≤ |(ofInt stickMax : CFloat).val| := by decide +kernel
  have hs' : Plus (ofInt stickMax : CFloat) := by decide +kernel
  have hone : Bounded 0 (ofInt (throttleAccelMaxUsPerCall - throttleAccelMinUsPerCall) : CFloat) ∧
      Plus (ofInt (throttleAccelMaxUsPerCall - throttleAccelMinUsPerCall) : CFloat) := by
    decide +kernel
  have hemin : binary32.emin = -149 := rfl
  have hemax : binary32.emax = 128 := rfl
  have hdiv : Bounded (k - 9) (fabs val / ofInt stickMax) :=
    habs.1.div (by omega) (by omega) (by decide +kernel) hs
  have hmul := hdiv.mul (k := 0) (by omega) (by omega) hone.1
  rw [add_zero] at hmul
  exact ⟨hmul, (habs.2.div hs' hdiv.isFinite).mul hone.2 hmul.isFinite⟩

theorem le_throttleRate {val : CFloat} {k : ℤ} (hk : 9 ≤ k) (hk' : k < 127) (h : Bounded k val) :
    throttleAccelMinUsPerCall ≤ toInt (throttleRate val) := by
  obtain ⟨hb, hplus⟩ := rateShare_spec hk (by omega) h
  have hmin : Bounded 0 (ofInt throttleAccelMinUsPerCall : CFloat) := by decide +kernel
  have hz : (ofRat 0 : CFloat).IsZero := isZero_ofRat_zero
  have hemin : binary32.emin = -149 := rfl
  have hemax : binary32.emax = 128 := rfl
  have hf : (throttleRate val).IsFinite :=
    ((hmin.mono (by omega)).add (k := k - 9) (by omega) (by omega) hb).isFinite
  have hle : (ofInt throttleAccelMinUsPerCall + ofRat 0 : CFloat) ≤ throttleRate val :=
    add_le_add_left_of_finite hmin.isFinite.isNum (hz.bounded 0).isFinite hb.isFinite
      (by rw [hz.val]; exact hplus.val_nonneg)
  have hsum : (ofInt throttleAccelMinUsPerCall + ofRat 0 : CFloat).IsFinite ∧
      (ofInt throttleAccelMinUsPerCall + ofRat 0 : CFloat).val = (1 : ℤ) := by decide +kernel
  rw [le_iff_val hsum.1 hf, hsum.2] at hle
  exact (le_trunc_iff (by decide)).2 hle

theorem throttleRate_le {val : CFloat} (h : Bounded 9 val) :
    toInt (throttleRate val) ≤ throttleAccelMaxUsPerCall := by
  obtain ⟨hb, -⟩ := rateShare_spec le_rfl (by norm_num) h
  have hmin : Bounded 0 (ofInt throttleAccelMinUsPerCall : CFloat) := by decide +kernel
  have hsum : Bounded 1 (throttleRate val) := hmin.add (k := 0) (by decide) (by decide) hb
  have hval := (abs_le.1 hsum.abs_val).2
  rw [zpow_one] at hval
  by_contra hlt
  have hlt' : (3 : ℤ) ≤ trunc (throttleRate val) := not_le.1 hlt
  rw [le_trunc_iff (by decide)] at hlt'
  push_cast at hlt'
  linarith

/-! ## The accumulator -/

/-- What `applyDeadband` makes of a deflection, as far as `accumulate_throttle` compares it. -/
theorem applyDeadband_sign (raw : ℤ) :
    (stickDeadband ≤ raw ∧ ofRat 0 < (applyDeadband raw : CFloat)) ∨
      (raw ≤ -stickDeadband ∧ (applyDeadband raw : CFloat) < ofRat 0) ∨
      (-stickDeadband < raw ∧ raw < stickDeadband ∧ (applyDeadband raw : CFloat) = ofRat 0) := by
  unfold applyDeadband
  by_cases h : -stickDeadband < raw ∧ raw < stickDeadband
  · rw [if_pos h]
    exact .inr (.inr ⟨h.1, h.2, rfl⟩)
  rw [if_neg h]
  simp only [stickDeadband] at h ⊢
  by_cases hpos : 20 ≤ raw
  · have hlt : ofRat 0 < (ofInt 1 : CFloat) := by decide +kernel
    have hle : (ofInt 1 : CFloat) ≤ ofInt raw :=
      ofRat_mono (by exact_mod_cast (by omega : (1 : ℤ) ≤ raw))
    exact .inl ⟨hpos, Flt.lt_of_lt_of_le hlt hle⟩
  · have hlt : (ofInt (-1) : CFloat) < ofRat 0 := by decide +kernel
    have hle : (ofInt raw : CFloat) ≤ ofInt (-1) :=
      ofRat_mono (by exact_mod_cast (by omega : raw ≤ (-1 : ℤ)))
    exact .inr (.inl ⟨by omega, Flt.lt_of_le_of_lt hle hlt⟩)

/-- What a frame does to the accumulator, by the position of the stick. -/
theorem accumulateThrottle_cases (axisY t : ℤ) :
    accumulateThrottle CFloat axisY t =
      if axisY ≤ -stickDeadband then
        clampThrottle (t + toInt (throttleRate (applyDeadband (-axisY) : CFloat)))
      else if stickDeadband ≤ axisY then
        clampThrottle (t - toInt (throttleRate (applyDeadband (-axisY) : CFloat)))
      else t := by
  unfold accumulateThrottle
  dsimp only
  have hne : ∀ {x y : CFloat}, x < y → ¬ feq x y = true ∧ ¬ feq y x = true := fun hlt =>
    ⟨fun h => not_lt_of_key_eq (key_eq_of_numEq h) hlt,
      fun h => not_lt_of_key_eq (key_eq_of_numEq h).symm hlt⟩
  rcases applyDeadband_sign (-axisY) with ⟨h, hs⟩ | ⟨h, hs⟩ | ⟨h1, h2, hs⟩
  · rw [if_neg (hne hs).2, if_pos hs, if_pos (by omega)]
  · have hn : ¬ ofRat 0 < (applyDeadband (-axisY) : CFloat) := fun hlt =>
      not_lt_of_key_eq rfl (Flt.lt_of_lt_of_le hlt (Flt.le_of_lt hs))
    have hd : 0 < stickDeadband := by decide
    rw [if_neg (hne hs).1, if_neg hn, if_neg (by omega), if_pos (by omega)]
  · have he : feq (applyDeadband (-axisY) : CFloat) (ofRat 0) = true := by
      rw [hs]
      decide +kernel
    rw [if_pos he, if_neg (by omega), if_neg (by omega)]

theorem clampThrottle_le {us b : ℤ} (h : us ≤ b) (hb : (escPwmMinUs : ℤ) ≤ b) :
    clampThrottle us ≤ b := by
  unfold clampThrottle
  dsimp only
  split_ifs <;> omega

/-- A frame that does not push the stick up does not raise the accumulator. -/
theorem accumulateThrottle_le {axisY t b : ℤ} (hy : |axisY| ≤ stickMax)
    (hup : ¬ axisY ≤ -stickDeadband) (ht : t ≤ b) (hb : (escPwmMinUs : ℤ) ≤ b) :
    accumulateThrottle CFloat axisY t ≤ b := by
  have hval : Bounded 9 (applyDeadband (-axisY) : CFloat) :=
    bounded_applyDeadband (by rwa [abs_neg])
  have hrate := le_throttleRate le_rfl (by norm_num) hval
  rw [accumulateThrottle_cases, if_neg hup]
  split
  · apply clampThrottle_le _ hb
    simp only [throttleAccelMinUsPerCall] at hrate
    omega
  · exact ht

/-- One that does raises it by 2 µs at most. -/
theorem accumulateThrottle_le_add {axisY t b : ℤ} (hy : |axisY| ≤ stickMax) (ht : t ≤ b)
    (hb : (escPwmMinUs : ℤ) ≤ b) :
    accumulateThrottle CFloat axisY t ≤ b + throttleAccelMaxUsPerCall := by
  have hmax : (0 : ℤ) ≤ throttleAccelMaxUsPerCall := by decide
  by_cases hup : axisY ≤ -stickDeadband
  · have hval : Bounded 9 (applyDeadband (-axisY) : CFloat) :=
      bounded_applyDeadband (by rwa [abs_neg])
    have hrate := throttleRate_le hval
    rw [accumulateThrottle_cases, if_pos hup]
    exact clampThrottle_le (by omega) (by omega)
  · exact (accumulateThrottle_le hy hup ht hb).trans (by omega)

/-! ## The throttle since a kill -/

/-- A gamepad frame without `BUTTON_X` and with the stick pushed up beyond the deadband. -/
def Event.climbs : Event CFloat → Bool
  | .gamepad ctl _ => !ctl.pressesX && decide (ctl.gamepad.axisY ≤ -stickDeadband)
  | _ => false

/-- After `n` frames that push the stick up, neither the accumulator nor the published throttle is
more than `2 n` µs above the arm pulse. -/
def ThrottleWithin (n : ℕ) (s : Firmware CFloat) : Prop :=
  s.ctrl.throttleUs ≤ escPwmArmUs + throttleAccelMaxUsPerCall * n ∧
    s.globals.throttle ≤ escPwmArmUs + throttleAccelMaxUsPerCall * n

variable {s : Firmware CFloat} {n : ℕ}

theorem armUs_le_bound (n : ℕ) :
    (escPwmMinUs : ℤ) ≤ escPwmArmUs + throttleAccelMaxUsPerCall * n := by
  simp only [escPwmMinUs, escPwmArmUs, throttleAccelMaxUsPerCall]
  omega

theorem throttleWithin_kill {e : Event CFloat} (he : e.IsKill) (hm : e.GetsMutex) :
    ThrottleWithin 0 (step s e) := by
  cases e with
  | gamepad ctl take =>
    have hx : ctl.pressesX = true := he
    have ht : take = true := hm
    simp only [step, onGamepadData, hx, ht, if_true]
    exact ⟨by simp, by simp [Globals.kill]⟩
  | disconnected take =>
    have ht : take = true := hm
    simp only [step, onDisconnected, ht, if_true]
    exact ⟨by simp, by simp [Globals.kill]⟩
  | _ => exact he.elim

/-- A frame publishes what it has made of the accumulator, or nothing. -/
theorem throttleWithin_frame {ctl : UniController} {take : Bool} (hx : ctl.pressesX = false)
    (h : s.globals.throttle ≤ escPwmArmUs + throttleAccelMaxUsPerCall * n)
    (ha : accumulateThrottle CFloat ctl.gamepad.axisY s.ctrl.throttleUs ≤
      escPwmArmUs + throttleAccelMaxUsPerCall * n) :
    ThrottleWithin n (onGamepadData ctl take s) := by
  unfold onGamepadData
  simp only [hx]
  cases take with
  | true => exact ⟨ha, ha⟩
  | false => exact ⟨ha, h⟩

theorem ThrottleWithin.mono {m : ℕ} (h : ThrottleWithin n s) (hnm : n ≤ m) : ThrottleWithin m s := by
  unfold ThrottleWithin at h ⊢
  simp only [throttleAccelMaxUsPerCall] at h ⊢
  omega

theorem ThrottleWithin.disconnected (take : Bool) (h : ThrottleWithin n s) :
    ThrottleWithin n (onDisconnected take s) := by
  have hb : (escPwmArmUs : ℤ) ≤ escPwmArmUs + throttleAccelMaxUsPerCall * n := armUs_le_bound n
  cases take with
  | true => exact ⟨hb, hb⟩
  | false => exact ⟨hb, h.2⟩

theorem ThrottleWithin.gamepad {ctl : UniController} (take : Bool)
    (hy : |ctl.gamepad.axisY| ≤ stickMax) (h : ThrottleWithin n s) :
    ThrottleWithin (if (Event.gamepad ctl take : Event CFloat).climbs then n + 1 else n)
      (onGamepadData ctl take s) := by
  have hb := armUs_le_bound n
  by_cases hx : ctl.pressesX = true
  · have hc : (Event.gamepad ctl take : Event CFloat).climbs = false := by
      simp [Event.climbs, hx]
    -- the frame is handled as a disconnect is, except for the connection flag
    have hk := h.disconnected take
    rw [hc, if_neg Bool.false_ne_true]
    simp only [onGamepadData, hx, if_true]
    exact hk
  have hx' : ctl.pressesX = false := by simpa using hx
  by_cases hup : ctl.gamepad.axisY ≤ -stickDeadband
  · have hc : (Event.gamepad ctl take : Event CFloat).climbs = true := by
      simp [Event.climbs, hx', hup]
    have hadd := accumulateThrottle_le_add hy h.1 hb
    have hnext : (escPwmArmUs : ℤ) + throttleAccelMaxUsPerCall * n + throttleAccelMaxUsPerCall =
        escPwmArmUs + throttleAccelMaxUsPerCall * (n + 1 : ℕ) := by
      push_cast
      ring
    rw [hc, if_pos rfl]
    rw [hnext] at hadd
    exact throttleWithin_frame hx' (h.mono (Nat.le_succ n)).2 hadd
  · have hc : (Event.gamepad ctl take : Event CFloat).climbs = false := by
      simp [Event.climbs, hup]
    rw [hc, if_neg Bool.false_ne_true]
    exact throttleWithin_frame hx' h.2 (accumulateThrottle_le hy hup h.1 hb)

/-- The step lemma: only a frame that climbs costs anything. -/
theorem throttleWithin_step {e : Event CFloat} (he : e.SticksInRange) (h : ThrottleWithin n s) :
    ThrottleWithin (if e.climbs then n + 1 else n) (step s e) := by
  by_cases h1 : ∃ ctl take, e = .gamepad ctl take
  · obtain ⟨ctl, take, rfl⟩ := h1
    exact h.gamepad take (abs_le_stickMax he.2.1)
  have hc : e.climbs = false := by
    cases e with
    | gamepad ctl take => exact absurd ⟨ctl, take, rfl⟩ h1
    | _ => rfl
  rw [hc, if_neg Bool.false_ne_true]
  by_cases h2 : ∃ take, e = .disconnected take
  · obtain ⟨take, rfl⟩ := h2
    exact h.disconnected take
  push Not at h1 h2
  obtain ⟨hu, p, r, y, hg⟩ := setpoints_frame (s := s) h1 h2
  unfold ThrottleWithin
  rw [hu, hg]
  exact h

theorem ThrottleWithin.grounded (h : ThrottleWithin n s) (hn : n ≤ 100) : s.globals.Grounded := by
  right
  have h2 := h.2
  simp only [escPwmArmUs, escPwmSpinUs, throttleAccelMaxUsPerCall] at h2 ⊢
  omega

/-! ## The law -/

/-- After a kill that got the mutex, every tick whose snapshot is taken before the hundred-and-first
frame that pushes the stick up commands the arm pulse, whatever else happens. -/
theorem no_quick_restart (sock : ℤ) (es₁ : List (Event CFloat)) (kill : Event CFloat)
    (es₂ es₃ : List (Event CFloat)) (now : ℕ) (hkill : kill.IsKill) (hmutex : kill.GetsMutex)
    (hsticks : ∀ e ∈ es₂, e.SticksInRange) (hclimb : es₂.countP Event.climbs < 101)
    (htask : (run sock (es₁ ++ kill :: es₂)).task.awaitsSetpoint) (hes₃ : ∀ e ∈ es₃, ¬ e.IsAct) :
    (run sock (es₁ ++ kill :: (es₂ ++ .fcTakeSetpoint true :: (es₃ ++ [.fcAct now])))).esc.calls =
      armCalls ++
        (run sock (es₁ ++ kill :: (es₂ ++ .fcTakeSetpoint true :: es₃))).esc.calls := by
  have h1 : ThrottleWithin 0 (step (run sock es₁) kill) := throttleWithin_kill hkill hmutex
  have h2 : ThrottleWithin (0 + es₂.countP Event.climbs) (run sock (es₁ ++ kill :: es₂)) := by
    rw [run, runFrom_append, runFrom_cons]
    exact runFrom_invariant_count ThrottleWithin Event.climbs h1 hsticks
      fun _ _ _ he hs => throttleWithin_step he hs
  have heq : ∀ fs, run sock (es₁ ++ kill :: (es₂ ++ fs)) =
      runFrom step (run sock (es₁ ++ kill :: es₂)) fs := by
    intro fs
    simp [run]
  rw [heq, heq]
  exact tick_arms_of_grounded (h2.grounded (by omega)) htask hes₃ now

/-- The pilot presses X in flight and pushes the stick up again at once; the next tick still stops the
motors. -/
theorem no_quick_restart_climb :
    (run (F := CFloat) 3 [.fcInit 0, .gamepad climbFrame true, .gamepad killFrame true,
        .gamepad climbFrame true, .fcTakeImu true, .fcTakeSetpoint true,
        .gamepad climbFrame false, .fcAct 10000]).esc.calls =
      armCalls ++ (run (F := CFloat) 3 [.fcInit 0, .gamepad climbFrame true,
        .gamepad killFrame true, .gamepad climbFrame true, .fcTakeImu true, .fcTakeSetpoint true,
        .gamepad climbFrame false]).esc.calls :=
  no_quick_restart 3 [.fcInit 0, .gamepad climbFrame true] (.gamepad killFrame true)
    [.gamepad climbFrame true, .fcTakeImu true] [.gamepad climbFrame false] 10000
    (show killFrame.pressesX = true from rfl) rfl
    (by simp [Event.SticksInRange, UniGamepad.InRange, climbFrame]) (by decide) (by decide +kernel)
    (by simp [Event.IsAct])

end EdnaDrone
