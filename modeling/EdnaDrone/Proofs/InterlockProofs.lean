import EdnaDrone.Proofs.ReportProofs
import EdnaDrone.Proofs.ExactProofs

/-!
# The flight interlock

The invariant of the whole system over exact arithmetic: the throttle and the setpoints stay in
their ranges, a kill zeroes them, and motors that are not at the arm pulse are flying on an
iteration that was neither killed nor tilted nor at a low throttle.
-/

namespace EdnaDrone

open Lib CNum

variable {K : Type} [Field K] [LinearOrder K] [FloorRing K]

/-- The stick axes of the frame are in bluepad32's range. -/
def UniGamepad.InRange (gp : UniGamepad) : Prop :=
  (-512 ≤ gp.axisX ∧ gp.axisX ≤ 511) ∧ (-512 ≤ gp.axisY ∧ gp.axisY ≤ 511) ∧
    (-512 ≤ gp.axisRx ∧ gp.axisRx ≤ 511) ∧ (-512 ≤ gp.axisRy ∧ gp.axisRy ≤ 511)

def Event.SticksInRange {F : Type} : Event F → Prop
  | .gamepad ctl _ => ctl.gamepad.InRange
  | _ => True

/-- The accumulator and the published throttle are between the pulse limits, and the setpoints
within the stick mapping. -/
structure SetpointsBounded (s : Firmware K) : Prop where
  throttleUs : (escPwmMinUs : ℤ) ≤ s.ctrl.throttleUs ∧ s.ctrl.throttleUs ≤ escPwmFlightMaxUs
  throttle : (escPwmMinUs : ℤ) ≤ s.globals.throttle ∧ s.globals.throttle ≤ escPwmFlightMaxUs
  pitchSp : |s.globals.pitchSp| ≤ (angleSetpointMax : K)
  rollSp : |s.globals.rollSp| ≤ (angleSetpointMax : K)
  yawSp : |s.globals.yawSp| ≤ (yawRateMax : K)

/-- A set kill flag comes with the arm throttle and zero setpoints. -/
def KillZeroes (s : Firmware K) : Prop :=
  s.globals.motorsKilled = true →
    s.globals.throttle = escPwmArmUs ∧ s.globals.pitchSp = 0 ∧ s.globals.rollSp = 0 ∧
      s.globals.yawSp = 0

/-- A snapshot on which the motors may spin. -/
def Snapshot.MaySpin (snap : Snapshot K) : Prop :=
  snap.killed = false ∧ |snap.pitch| ≤ (angleLimitDeg : K) ∧ |snap.roll| ≤ (angleLimitDeg : K) ∧
    (escPwmSpinUs : ℤ) < snap.throttle

/-- Motors commanded anything but the arm pulse follow from an iteration that may spin them, and
all four commands are in range. -/
def SpinJustified (s : Firmware K) : Prop :=
  (∃ m, s.esc.lastCommanded m ≠ some escPwmArmUs) →
    (∃ snap, s.lastTick = some snap ∧ snap.MaySpin) ∧
      ∀ m, ∃ p, s.esc.lastCommanded m = some p ∧ PulseInRange p

variable {s : Firmware K}

theorem spinJustified_boot (sock : ℤ) : SpinJustified (boot sock : Firmware K) := by
  rintro ⟨m, hm⟩
  have hc : (boot sock : Firmware K).esc.calls = armCalls ++ escInit.calls := escSetAllUs_calls _
  rw [lastCommanded_of_calls hc, pulseOf_same] at hm
  exact absurd rfl hm

/-! ## The kill flag -/

theorem killZeroes_kill (g : Globals K) :
    g.kill.throttle = escPwmArmUs ∧ g.kill.pitchSp = 0 ∧ g.kill.rollSp = 0 ∧ g.kill.yawSp = 0 := by
  refine ⟨rfl, ?_, ?_, ?_⟩ <;> exact Rat.cast_zero

theorem killZeroes_step {e : Event K} (h : KillZeroes s) : KillZeroes (step s e) := by
  by_cases h1 : ∃ ctl take, e = .gamepad ctl take
  · obtain ⟨ctl, take, rfl⟩ := h1
    simp only [step, onGamepadData]
    by_cases hx : ctl.pressesX = true
    · simp only [hx, if_true]
      cases take with
      | true => exact fun _ => killZeroes_kill s.globals
      | false => exact h
    · simp only [hx]
      cases take with
      | true => exact fun hk => absurd hk (by simp)
      | false => exact h
  by_cases h2 : ∃ take, e = .disconnected take
  · obtain ⟨take, rfl⟩ := h2
    cases take with
    | true => exact fun _ => killZeroes_kill s.globals
    | false => exact h
  push Not at h1 h2
  obtain ⟨-, p, r, y, hg⟩ := setpoints_frame (s := s) h1 h2
  unfold KillZeroes
  rw [hg]
  exact h

variable [IsStrictOrderedRing K]

/-! ## The gamepad callbacks -/

theorem abs_le_stickMax {raw : ℤ} (h : -512 ≤ raw ∧ raw ≤ 511) : |raw| ≤ stickMax := by
  rw [abs_le]
  simp only [stickMax]
  omega

theorem SetpointsBounded.kill {g : Globals K} {c : ControllerState} (b : Bool)
    (h : SetpointsBounded s) (hc : c.throttleUs = escPwmArmUs)
    (hg : g = if b then s.globals.kill else s.globals) :
    SetpointsBounded { s with ctrl := c, globals := g } := by
  subst hg
  have harm : (escPwmMinUs : ℤ) ≤ escPwmArmUs ∧ (escPwmArmUs : ℤ) ≤ escPwmFlightMaxUs := by decide
  have hsp : |(ofRat 0 : K)| ≤ (angleSetpointMax : K) := by
    rw [ofRat_exact]; norm_num [angleSetpointMax]
  have hyaw : |(ofRat 0 : K)| ≤ (yawRateMax : K) := by
    rw [ofRat_exact]; norm_num [yawRateMax]
  cases b with
  | true => exact ⟨by rw [hc]; exact harm, harm, hsp, hsp, hyaw⟩
  | false => exact ⟨by rw [hc]; exact harm, h.throttle, h.pitchSp, h.rollSp, h.yawSp⟩

theorem SetpointsBounded.gamepad {ctl : UniController} (take : Bool) (h : SetpointsBounded s)
    (hr : ctl.gamepad.InRange) : SetpointsBounded (onGamepadData ctl take s) := by
  unfold onGamepadData
  dsimp only
  split
  · exact h.kill take rfl rfl
  · obtain ⟨hx, hy, hrx, hry⟩ := hr
    have ht := accumulateThrottle_mem (F := K) ctl.gamepad.axisY h.throttleUs.1 h.throttleUs.2
    cases take with
    | true =>
      refine ⟨ht, ht, abs_normalizeAngle_le ?_, abs_normalizeAngle_le (abs_le_stickMax hrx),
        abs_normalizeYaw_le (abs_le_stickMax hx)⟩
      rw [abs_neg]
      exact abs_le_stickMax hry
    | false => exact ⟨ht, h.throttle, h.pitchSp, h.rollSp, h.yawSp⟩

/-! ## One step -/

theorem setpointsBounded_step {e : Event K} (h : SetpointsBounded s) (he : e.SticksInRange) :
    SetpointsBounded (step s e) := by
  by_cases h1 : ∃ ctl take, e = .gamepad ctl take
  · obtain ⟨ctl, take, rfl⟩ := h1
    exact h.gamepad take he
  by_cases h2 : ∃ take, e = .disconnected take
  · obtain ⟨take, rfl⟩ := h2
    exact h.kill take rfl rfl
  push Not at h1 h2
  obtain ⟨hu, p, r, y, hg⟩ := setpoints_frame (s := s) h1 h2
  constructor
  · rw [hu]
    exact h.throttleUs
  all_goals rw [hg]
  · exact h.throttle
  · exact h.pitchSp
  · exact h.rollSp
  · exact h.yawSp

theorem Snapshot.maySpin_of_not_armExit {snap : Snapshot K} (h : ¬ snap.ArmExit) : snap.MaySpin := by
  unfold Snapshot.ArmExit Snapshot.angleExceeded at h
  push Not at h
  obtain ⟨hk, ⟨h1, h2, h3, h4⟩, ht⟩ := h
  rw [ofRat_exact] at h1 h2 h3 h4
  exact ⟨by simpa using hk, abs_le.2 ⟨h2, h1⟩, abs_le.2 ⟨h4, h3⟩, ht⟩

theorem flightControllerMix_pulses (dt : K) (snap : Snapshot K) (m : Motor) :
    ∃ p, (flightControllerMix dt snap s).esc.lastCommanded m = some p ∧ PulseInRange p := by
  have hm : PulseInRange (mixedMotors dt snap s.fc).fl ∧ PulseInRange (mixedMotors dt snap s.fc).fr ∧
      PulseInRange (mixedMotors dt snap s.fc).rl ∧ PulseInRange (mixedMotors dt snap s.fc).rr :=
    motorMix_mem _ _ _ _
  obtain ⟨h1, h2, h3, h4⟩ := hm
  refine ⟨_, lastCommanded_of_calls (flightControllerMix_calls dt snap) m, ?_⟩
  fin_cases m
  · exact h1
  · exact h2
  · exact h3
  · exact h4

theorem spinJustified_step {e : Event K} (h : SpinJustified s) : SpinJustified (step s e) := by
  by_cases he : e.IsAct
  · cases e with
    | fcAct now =>
      cases htask : s.task with
      | gotSetpoint snap =>
        have hesc : (step s (.fcAct now)).esc = (flightCtrlBody now snap s).esc := by
          simp only [step, flightCtrlAct, htask]
        have htick : (step s (.fcAct now)).lastTick = some snap := by
          simp only [step, flightCtrlAct, htask]
        intro hm
        rw [hesc] at hm ⊢
        rw [htick]
        by_cases hx : snap.ArmExit
        · obtain ⟨m, hm⟩ := hm
          rw [lastCommanded_of_calls (flightCtrlBody_armExit hx now).1, pulseOf_same] at hm
          exact absurd rfl hm
        · refine ⟨⟨snap, rfl, Snapshot.maySpin_of_not_armExit hx⟩, ?_⟩
          rw [flightCtrlBody_of_not_armExit hx]
          exact flightControllerMix_pulses _ snap
      | _ =>
        have hst : step s (.fcAct now) = s := by simp only [step, flightCtrlAct, htask]
        rw [hst]
        exact h
    | _ => exact he.elim
  · obtain ⟨h0, ht, -⟩ := motors_frame (s := s) he
    unfold SpinJustified
    rw [h0, ht]
    exact h

/-! ## Runs -/

theorem setpointsBounded_boot (sock : ℤ) : SetpointsBounded (boot sock : Firmware K) := by
  have h0 : (ofRat 0 : K) = 0 := Rat.cast_zero
  have ht : (escPwmMinUs : ℤ) ≤ escPwmSpinUs ∧ (escPwmSpinUs : ℤ) ≤ escPwmFlightMaxUs := by decide
  have ha : (escPwmMinUs : ℤ) ≤ escPwmArmUs ∧ (escPwmArmUs : ℤ) ≤ escPwmFlightMaxUs := by decide
  refine ⟨ht, ha, ?_, ?_, ?_⟩
  · simp [boot, h0, angleSetpointMax]
  · simp [boot, h0, angleSetpointMax]
  · simp [boot, h0, yawRateMax]

/-- The interlock holds in every state of every run with the sticks in range. -/
theorem flight_interlock (sock : ℤ) (es : List (Event K)) (h : ∀ e ∈ es, e.SticksInRange) :
    SetpointsBounded (run sock es) ∧ KillZeroes (run sock es) ∧ SpinJustified (run sock es) := by
  refine ⟨?_, ?_, ?_⟩
  · exact (allSteps_of_forall h).invariant SetpointsBounded (setpointsBounded_boot sock)
      fun _ _ he hs => setpointsBounded_step hs he
  · refine runFrom_invariant KillZeroes ?_ (fun _ _ hs => killZeroes_step hs) es
    intro hk
    exact absurd hk (by simp [boot])
  · exact runFrom_invariant SpinJustified (spinJustified_boot sock)
      (fun _ _ hs => spinJustified_step hs) es

/-- The throttle stick is pushed up for two frames, and the flight task mixes once. -/
def climbRun : List (Event ℚ) :=
  [.fcInit 0, .gamepad climbFrame true, .gamepad climbFrame true, .imu (-1) 12 0 true,
    .fcTakeImu true, .fcTakeSetpoint true, .fcAct 10000]

theorem flight_interlock_climb :
    SetpointsBounded (run 3 climbRun) ∧ KillZeroes (run 3 climbRun) ∧
      SpinJustified (run 3 climbRun) :=
  flight_interlock 3 climbRun (by
    simp [climbRun, Event.SticksInRange, UniGamepad.InRange, climbFrame])

end EdnaDrone
