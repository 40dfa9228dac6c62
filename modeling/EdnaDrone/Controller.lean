import EdnaDrone.State

/-!
# `controller.c`: gamepad frames and connection callbacks

The callbacks run one after the other in the Bluetooth task. Each of them takes `setpoint_mutex` at
most once; whether it gets the mutex is the argument `take`. The statics of `controller.c` are
private to the task, so a callback is one step.
-/

namespace EdnaDrone

open CNum

/-- `uni_controller_class_t`. -/
inductive UniControllerClass where
  | none
  | gamepad
  | mouse
  | keyboard
  | balanceBoard
  deriving DecidableEq

/-- The fields of `uni_gamepad_t` that `on_gamepad_data` reads. -/
structure UniGamepad where
  axisX : ℤ
  axisY : ℤ
  axisRx : ℤ
  axisRy : ℤ
  buttons : UInt16
  deriving DecidableEq

/-- `uni_controller_t`: the class of the device, and its data read as a gamepad's. -/
structure UniController where
  klass : UniControllerClass
  gamepad : UniGamepad
  deriving DecidableEq

/-- `BUTTON_X`, bit 2 of the buttons. -/
def buttonX : UInt16 := 4

def UniController.pressesX (ctl : UniController) : Bool := ctl.gamepad.buttons &&& buttonX != 0

section Sticks

variable {F : Type} [Add F] [Mul F] [Div F] [LT F] [DecidableLT F] [CNum F]

def applyDeadband (raw : ℤ) : F :=
  if -stickDeadband < raw ∧ raw < stickDeadband then ofRat 0 else ofInt raw

/-- The throttle rate of a deflection beyond the deadband, in microseconds per frame. -/
def throttleRate (val : F) : F :=
  ofInt throttleAccelMinUsPerCall +
    fabs val / ofInt stickMax * ofInt (throttleAccelMaxUsPerCall - throttleAccelMinUsPerCall)

def clampThrottle (us : ℤ) : ℤ :=
  let us := if us < escPwmMinUs then (escPwmMinUs : ℤ) else us
  if escPwmFlightMaxUs < us then (escPwmFlightMaxUs : ℤ) else us

variable (F) in
/-- `accumulate_throttle`: the new value of `s_throttle_us`, which is also what it returns. -/
def accumulateThrottle (raw : ℤ) (throttleUs : ℤ) : ℤ :=
  let val : F := applyDeadband (-raw)
  if feq val (ofRat 0) then throttleUs
  else if ofRat 0 < val then clampThrottle (throttleUs + toInt (throttleRate val))
  else clampThrottle (throttleUs - toInt (throttleRate val))

def normalizeAngle (raw : ℤ) : F := applyDeadband raw / ofInt stickMax * ofRat angleSetpointMax

def normalizeYaw (raw : ℤ) : F := applyDeadband raw / ofInt stickMax * ofRat yawRateMax

end Sticks

section Callbacks

variable {F : Type} [Add F] [Mul F] [Div F] [LT F] [DecidableLT F] [CNum F]

/-- The section of a kill under `setpoint_mutex`. -/
def Globals.kill (g : Globals F) : Globals F :=
  { g with
    throttle := escPwmArmUs, pitchSp := ofRat 0, rollSp := ofRat 0, yawSp := ofRat 0
    motorsKilled := true }

def onConnected (s : Firmware F) : Firmware F :=
  { s with ctrl := { s.ctrl with connected := true } }

def onDisconnected (take : Bool) (s : Firmware F) : Firmware F :=
  { s with
    ctrl := { connected := false, throttleUs := escPwmArmUs }
    globals := if take then s.globals.kill else s.globals }

def onGamepadData (ctl : UniController) (take : Bool) (s : Firmware F) : Firmware F :=
  let gp := ctl.gamepad
  if ctl.pressesX then
    { s with
      ctrl := { s.ctrl with throttleUs := escPwmArmUs }
      globals := if take then s.globals.kill else s.globals }
  else
    let thr := accumulateThrottle F gp.axisY s.ctrl.throttleUs
    { s with
      ctrl := { s.ctrl with throttleUs := thr }
      globals :=
        if take then
          { s.globals with
            throttle := thr
            pitchSp := normalizeAngle (-gp.axisRy)
            rollSp := normalizeAngle gp.axisRx
            yawSp := normalizeYaw gp.axisX
            motorsKilled := false }
        else s.globals }

end Callbacks

end EdnaDrone
