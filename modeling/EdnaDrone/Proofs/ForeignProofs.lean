import EdnaDrone.ControllerData
import EdnaDrone.Proofs.ThrottleProofs

/-!
# Frames of devices that are not gamepads

`on_gamepad_data` never looks at the class of the device. So a foreign frame flies the drone like any
other frame does, and leaves the drone alone exactly when what it says as a gamepad's is what holds
already.
-/

namespace EdnaDrone

open Lib CNum

open Lib.Flt hiding ofRat abs

/-! ## What a frame writes -/

/-- What the callbacks tell the flight task. -/
structure PilotInputs (F : Type) where
  throttleUs : ℤ
  throttle : ℤ
  pitchSp : F
  rollSp : F
  yawSp : F
  motorsKilled : Bool

section Inputs

variable {F : Type}

def Firmware.pilotInputs (s : Firmware F) : PilotInputs F where
  throttleUs := s.ctrl.throttleUs
  throttle := s.globals.throttle
  pitchSp := s.globals.pitchSp
  rollSp := s.globals.rollSp
  yawSp := s.globals.yawSp
  motorsKilled := s.globals.motorsKilled

def Firmware.withPilotInputs (s : Firmware F) (i : PilotInputs F) : Firmware F :=
  { s with
    ctrl := { s.ctrl with throttleUs := i.throttleUs }
    globals :=
      { s.globals with
        throttle := i.throttle, pitchSp := i.pitchSp, rollSp := i.rollSp, yawSp := i.yawSp
        motorsKilled := i.motorsKilled } }

variable [Add F] [Mul F] [Div F] [LT F] [DecidableLT F] [CNum F]

/-- A frame writes the pilot's inputs and nothing else. -/
theorem onGamepadData_eq_with (ctl : UniController) (take : Bool) (s : Firmware F) :
    onGamepadData ctl take s = s.withPilotInputs (onGamepadData ctl take s).pilotInputs := by
  unfold onGamepadData
  dsimp only
  split
  · cases take <;> rfl
  · cases take <;> rfl

theorem onGamepadData_eq_self_iff {ctl : UniController} {take : Bool} {s : Firmware F} :
    onGamepadData ctl take s = s ↔ (onGamepadData ctl take s).pilotInputs = s.pilotInputs := by
  constructor
  · intro h
    rw [h]
  · intro h
    rw [onGamepadData_eq_with, h]
    rfl

end Inputs

/-! ## When a frame changes nothing -/

/-- The stick neither raises the accumulator nor lowers it. -/
def ThrottleHeld (throttleUs axisY : ℤ) : Prop :=
  (axisY ≤ -stickDeadband → throttleUs = escPwmFlightMaxUs) ∧
    (stickDeadband ≤ axisY → throttleUs = escPwmMinUs)

/-- The setpoint is the share of `limit` that the stick's reading is of its full deflection. -/
def SetpointAt (sp : CFloat) (raw : ℤ) (limit : ℚ) : Prop :=
  if -stickDeadband < raw ∧ raw < stickDeadband then sp = ofRat 0
  else sp = ofInt raw / ofInt stickMax * ofRat limit

/-- What a kill publishes is published. -/
structure KillPublished (g : Globals CFloat) : Prop where
  killed : g.motorsKilled = true
  throttle : g.throttle = escPwmArmUs
  pitch : g.pitchSp = ofRat 0
  roll : g.rollSp = ofRat 0
  yaw : g.yawSp = ofRat 0

/-- What the sticks and the accumulator say is published. -/
structure SticksPublished (g : Globals CFloat) (throttleUs : ℤ) (gp : UniGamepad) : Prop where
  normal : g.motorsKilled = false
  throttle : g.throttle = throttleUs
  pitch : SetpointAt g.pitchSp (-gp.axisRy) angleSetpointMax
  roll : SetpointAt g.rollSp gp.axisRx angleSetpointMax
  yaw : SetpointAt g.yawSp gp.axisX yawRateMax

/-- The record says, read as a gamepad's, what the state has already. -/
def SaysNothingNew (s : Firmware CFloat) (ctl : UniController) (take : Bool) : Prop :=
  if ctl.pressesX then s.ctrl.throttleUs = escPwmArmUs ∧ (take → KillPublished s.globals)
  else ThrottleHeld s.ctrl.throttleUs ctl.gamepad.axisY ∧
    (take → SticksPublished s.globals s.ctrl.throttleUs ctl.gamepad)

/-- The condition on a step: a foreign frame says nothing new. -/
def ForeignIdle (s : Firmware CFloat) : Event CFloat → Prop
  | .gamepad ctl take => ctl.klass ≠ .gamepad → SaysNothingNew s ctl take
  | _ => True

def Event.isForeign {F : Type} : Event F → Bool
  | .gamepad ctl _ => ctl.klass != .gamepad
  | _ => false

/-- The two axes that the code negates are not `INT_MIN`, whose negation C does not define. -/
def Event.NegatesDefined {F : Type} : Event F → Prop
  | .gamepad ctl _ => |ctl.gamepad.axisY| < 2 ^ 31 ∧ |ctl.gamepad.axisRy| < 2 ^ 31
  | _ => True

variable {s : Firmware CFloat}

theorem one_le_throttleRate {axisY : ℤ} (h : |axisY| < 2 ^ 31) :
    1 ≤ toInt (throttleRate (applyDeadband (-axisY) : CFloat)) := by
  have hb : Bounded 31 (applyDeadband (-axisY) : CFloat) := by
    unfold applyDeadband
    split
    · exact isZero_ofRat_zero.bounded 31
    · apply bounded_ofInt (by norm_num) (by norm_num)
      rw [← Int.cast_abs, abs_neg]
      exact_mod_cast h.le
  exact le_throttleRate (by norm_num) (by norm_num) hb

theorem accumulateThrottle_eq_self_iff {axisY t : ℤ} (h : |axisY| < 2 ^ 31) :
    accumulateThrottle CFloat axisY t = t ↔ ThrottleHeld t axisY := by
  have hrate := one_le_throttleRate h
  have hd : 0 < stickDeadband := by decide
  rw [accumulateThrottle_cases]
  unfold ThrottleHeld clampThrottle
  dsimp only
  simp only [escPwmMinUs, escPwmFlightMaxUs]
  by_cases hup : axisY ≤ -stickDeadband
  · rw [if_pos hup]
    split_ifs <;> omega
  rw [if_neg hup]
  by_cases hdown : stickDeadband ≤ axisY
  · rw [if_pos hdown]
    split_ifs <;> omega
  · rw [if_neg hdown]
    exact ⟨fun _ => ⟨fun h => absurd h hup, fun h => absurd h hdown⟩, fun _ => rfl⟩

theorem scaled_eq_iff {sp : CFloat} {raw : ℤ} {limit : ℚ}
    (h0 : (ofRat 0 / ofInt stickMax * ofRat limit : CFloat) = ofRat 0) :
    applyDeadband raw / ofInt stickMax * ofRat limit = sp ↔ SetpointAt sp raw limit := by
  unfold applyDeadband SetpointAt
  split
  · rw [h0]
    exact eq_comm
  · exact eq_comm

theorem normalizeAngle_eq_iff {sp : CFloat} {raw : ℤ} :
    normalizeAngle raw = sp ↔ SetpointAt sp raw angleSetpointMax :=
  scaled_eq_iff (by decide +kernel)

theorem normalizeYaw_eq_iff {sp : CFloat} {raw : ℤ} :
    normalizeYaw raw = sp ↔ SetpointAt sp raw yawRateMax :=
  scaled_eq_iff (by decide +kernel)

theorem kill_eq_iff {g : Globals CFloat} :
    (escPwmArmUs : ℤ) = g.throttle ∧ ofRat 0 = g.pitchSp ∧ ofRat 0 = g.rollSp ∧
      ofRat 0 = g.yawSp ∧ true = g.motorsKilled ↔ KillPublished g := by
  constructor
  · rintro ⟨h1, h2, h3, h4, h5⟩
    exact ⟨h5.symm, h1.symm, h2.symm, h3.symm, h4.symm⟩
  · rintro ⟨h5, h1, h2, h3, h4⟩
    exact ⟨h1.symm, h2.symm, h3.symm, h4.symm, h5.symm⟩

theorem sticks_eq_iff {g : Globals CFloat} {t : ℤ} {gp : UniGamepad} :
    t = g.throttle ∧ normalizeAngle (-gp.axisRy) = g.pitchSp ∧ normalizeAngle gp.axisRx = g.rollSp ∧
      normalizeYaw gp.axisX = g.yawSp ∧ false = g.motorsKilled ↔ SticksPublished g t gp := by
  rw [normalizeAngle_eq_iff, normalizeAngle_eq_iff, normalizeYaw_eq_iff]
  constructor
  · rintro ⟨h1, h2, h3, h4, h5⟩
    exact ⟨h5.symm, h1.symm, h2, h3, h4⟩
  · rintro ⟨h5, h1, h2, h3, h4⟩
    exact ⟨h1.symm, h2, h3, h4, h5.symm⟩

/-- The step lemma: a frame changes nothing exactly when it says nothing new. -/
theorem pilotInputs_eq_iff {ctl : UniController} {take : Bool} (h : |ctl.gamepad.axisY| < 2 ^ 31) :
    (onGamepadData ctl take s).pilotInputs = s.pilotInputs ↔ SaysNothingNew s ctl take := by
  unfold onGamepadData SaysNothingNew Firmware.pilotInputs
  by_cases hx : ctl.pressesX = true
  · simp only [hx, if_true, PilotInputs.mk.injEq]
    rw [eq_comm (b := s.ctrl.throttleUs)]
    apply and_congr_right
    intro _
    cases take with
    | true => simpa [Globals.kill] using kill_eq_iff
    | false => simp
  · simp only [hx, if_false, PilotInputs.mk.injEq, Bool.false_eq_true]
    rw [accumulateThrottle_eq_self_iff h]
    apply and_congr_right
    intro hheld
    rw [(accumulateThrottle_eq_self_iff h).2 hheld]
    cases take with
    | true => simpa using sticks_eq_iff
    | false => simp

theorem step_eq_self_of_foreign {e : Event CFloat} (hdef : e.NegatesDefined) (hf : e.isForeign = true)
    (h : ForeignIdle s e) : step s e = s := by
  cases e with
  | gamepad ctl take =>
    have hk : ctl.klass ≠ .gamepad := by simpa [Event.isForeign] using hf
    exact onGamepadData_eq_self_iff.2 ((pilotInputs_eq_iff hdef.1).2 (h hk))
  | _ => simp [Event.isForeign] at hf

theorem foreignIdle_iff {e : Event CFloat} (hdef : e.NegatesDefined) :
    ForeignIdle s e ↔ (e.isForeign = true → (step s e).pilotInputs = s.pilotInputs) := by
  cases e with
  | gamepad ctl take =>
    have hk : Event.isForeign (.gamepad ctl take : Event CFloat) = true ↔ ctl.klass ≠ .gamepad := by
      simp [Event.isForeign]
    rw [hk]
    exact forall_congr' fun _ => (pilotInputs_eq_iff hdef.1).symm
  | _ => exact ⟨fun _ h => absurd h (by simp [Event.isForeign]), fun _ => trivial⟩

/-! ## The data of the devices -/

/-- The X button of a foreign record is a byte that the device's own data do not reach, and so is the
right stick. -/
theorem foreign_view {d : ControllerData} (h : d.toController.klass ≠ .gamepad) :
    d.toController.pressesX = false ∧ d.toController.gamepad.axisRx = 0 ∧
      d.toController.gamepad.axisRy = 0 := by
  have key : ∀ union : Bytes, (∀ off, 12 ≤ off → ∀ w, ofLE (fieldAt union off w) = 0) →
      ∀ klass, (⟨klass, gamepadView union⟩ : UniController).pressesX = false ∧
        (gamepadView union).axisRx = 0 ∧ (gamepadView union).axisRy = 0 := by
    intro union hz klass
    unfold UniController.pressesX gamepadView i32At u16At
    simp only [hz 12 (by norm_num), hz 16 (by norm_num), hz 28 (by norm_num)]
    exact ⟨rfl, rfl, rfl⟩
  have hshort : ∀ union : Bytes, union.length ≤ 12 → ∀ off, 12 ≤ off → ∀ w,
      ofLE (fieldAt union off w) = 0 := by
    intro union hlen off hoff w
    have hdrop : union.drop off = [] := List.drop_eq_nil_of_le (hlen.trans hoff)
    rw [fieldAt, hdrop, List.take_nil]
    rfl
  cases d with
  | gamepad gp => exact absurd rfl h
  | mouse m => exact key _ (hshort _ (by simp [UniMouse.bytes, toLE])) _
  | balanceBoard bb => exact key _ (hshort _ (by simp [UniBalanceBoard.bytes, toLE])) _
  | keyboard kb =>
    refine key _ (fun off hoff w => ?_) _
    have hlen : (kb.modifiers :: kb.pressedKeys.toList).length = 11 := by simp
    have hbytes : kb.bytes = (kb.modifiers :: kb.pressedKeys.toList) ++ List.replicate 16 0 := rfl
    rw [fieldAt, hbytes, List.drop_append, List.drop_eq_nil_of_le (by omega), List.nil_append,
      List.drop_replicate, List.take_replicate]
    exact ofLE_replicate_zero _

/-- Any foreign frame that gets the mutex takes back a kill and levels the craft. -/
theorem foreign_frame_takes_back_kill {d : ControllerData} (h : d.toController.klass ≠ .gamepad)
    (s : Firmware CFloat) :
    (onGamepadData d.toController true s).globals.motorsKilled = false ∧
      (onGamepadData d.toController true s).globals.pitchSp = ofRat 0 ∧
      (onGamepadData d.toController true s).globals.rollSp = ofRat 0 := by
  obtain ⟨hx, hrx, hry⟩ := foreign_view h
  have h0 : (normalizeAngle 0 : CFloat) = ofRat 0 := by decide +kernel
  simp only [onGamepadData, hx, hrx, hry, neg_zero, h0]
  exact ⟨rfl, rfl, rfl⟩

/-! ## Runs -/

/-- In a run, every foreign frame leaves the pilot's inputs as they are exactly when each says nothing
new; and then the motors get the commands of the run without the foreign frames. -/
theorem only_gamepads_fly_iff (sock : ℤ) (es : List (Event CFloat))
    (hdef : ∀ e ∈ es, e.NegatesDefined) :
    ((∀ pre e post, es = pre ++ e :: post → e.isForeign = true →
        (run sock (pre ++ [e])).pilotInputs = (run sock pre).pilotInputs) ↔
      AllSteps step ForeignIdle (boot sock) es) ∧
    (AllSteps step ForeignIdle (boot sock) es → ∀ n,
      (run sock ((es.take n).filter fun e => !e.isForeign)).esc.calls =
        (run sock (es.take n)).esc.calls) := by
  constructor
  · rw [allSteps_iff_forall_split]
    refine forall₃_congr fun pre e post => ?_
    refine forall_congr' fun hsplit => ?_
    have he : e.NegatesDefined := hdef e (by rw [hsplit]; simp)
    have hstep : run sock (pre ++ [e]) = step (run sock pre) e := runFrom_append _ _
    rw [foreignIdle_iff he, hstep]
  · intro h n
    have hall : AllSteps step (fun s e => ForeignIdle s e ∧ e.NegatesDefined) (boot sock) es := by
      rw [allSteps_iff_forall_split] at h ⊢
      intro pre e post hsplit
      exact ⟨h pre e post hsplit, hdef e (by rw [hsplit]; simp)⟩
    have hdrop : ∀ (s : Firmware CFloat) (e : Event CFloat), ForeignIdle s e ∧ e.NegatesDefined →
        (!e.isForeign) = false → step s e = s := fun s e he hk =>
      step_eq_self_of_foreign he.2 (by simpa using hk) he.1
    rw [run, run, (hall.take n).runFrom_filter hdrop]

def idleMouse : UniController := (ControllerData.mouse ⟨0, 0, 0, 0, 0⟩).toController

/-- One notch of the wheel. -/
def wheelMouse : UniController := (ControllerData.mouse ⟨0, 0, 0, 1, 0⟩).toController

/-- A mouse that lies still says nothing new to a drone whose sticks are released. -/
theorem only_gamepads_fly_iff_idle :
    (run (F := CFloat) 3 [.fcInit 0, .gamepad climbFrame true, .fcTakeImu true,
      .fcTakeSetpoint true, .fcAct 10000]).esc.calls =
    (run (F := CFloat) 3 [.fcInit 0, .gamepad climbFrame true, .gamepad idleMouse true,
      .fcTakeImu true, .fcTakeSetpoint true, .fcAct 10000]).esc.calls := by
  refine (only_gamepads_fly_iff 3 [.fcInit 0, .gamepad climbFrame true, .gamepad idleMouse true,
    .fcTakeImu true, .fcTakeSetpoint true, .fcAct 10000]
    (by simp [Event.NegatesDefined]; decide)).2
    ⟨trivial, fun h => absurd rfl h, fun _ => ?_, trivial, trivial, trivial, trivial⟩ 6
  have hx : ¬ idleMouse.pressesX = true := by decide
  have hy : ∀ t, ThrottleHeld t idleMouse.gamepad.axisY := fun t =>
    ⟨fun h => absurd h (by decide), fun h => absurd h (by decide)⟩
  rw [SaysNothingNew, if_neg hx]
  refine ⟨hy _, fun _ => ⟨by decide +kernel, by decide +kernel, ?_, ?_, ?_⟩⟩
  · unfold SetpointAt
    decide +kernel
  · unfold SetpointAt
    decide +kernel
  · unfold SetpointAt
    decide +kernel

/-- A mouse that lies still takes back the kill of the X button, and one notch of its wheel lowers the
throttle of the next tick. -/
theorem mouse_flies_the_drone :
    (¬ ∀ (sock : ℤ) (es : List (Event CFloat)) (e : Event CFloat), e.isForeign = true →
      (run sock (es ++ [e])).pilotInputs = (run sock es).pilotInputs) ∧
    ¬ ∀ (sock : ℤ) (es₁ es₂ : List (Event CFloat)) (e : Event CFloat), e.isForeign = true →
      (run sock (es₁ ++ e :: es₂)).esc.calls = (run sock (es₁ ++ es₂)).esc.calls := by
  constructor
  · intro h
    have h1 := congrArg PilotInputs.motorsKilled
      (h 3 [.gamepad killFrame true] (.gamepad idleMouse true) rfl)
    revert h1
    decide +kernel
  · intro h
    have h1 := h 3 [.fcInit 0, .gamepad climbFrame true]
      [.fcTakeImu true, .fcTakeSetpoint true, .fcAct 10000] (.gamepad wheelMouse true) rfl
    revert h1
    decide +kernel

end EdnaDrone
