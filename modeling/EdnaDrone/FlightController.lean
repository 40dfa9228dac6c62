import EdnaDrone.MotorMix
import EdnaDrone.State

/-!
# `flight_controller.c`: the control step
-/

namespace EdnaDrone

open CNum

section Init

variable {F : Type} [CNum F]

/-- `flight_controller_init`; `now` is the reading of `esc_timer_get_time`. -/
def flightControllerInit (now : ℕ) (s : Firmware F) : Firmware F :=
  { s with
    fc :=
      { pidPitch := pidInit (ofRat pidPitchKp) (ofRat pidPitchKi) (ofRat pidPitchKd)
        pidRoll := pidInit (ofRat pidRollKp) (ofRat pidRollKi) (ofRat pidRollKd)
        pidYaw := pidInit (ofRat pidYawKp) (ofRat pidYawKi) (ofRat pidYawKd)
        lastUpdateUs := UInt32.ofNat now } }

def FlightController.reset (fc : FlightController F) : FlightController F :=
  { fc with
    pidPitch := pidReset fc.pidPitch, pidRoll := pidReset fc.pidRoll, pidYaw := pidReset fc.pidYaw }

def flightControllerResetIntegrals (s : Firmware F) : Firmware F := { s with fc := s.fc.reset }

def telemetrySetMotorValues (m : MotorOutputs) (t : TelemetryState F) : TelemetryState F :=
  { t with mFl := m.fl, mFr := m.fr, mRl := m.rl, mRr := m.rr }

def telemetrySetPidOutputs (pitch roll yaw : F) (t : TelemetryState F) : TelemetryState F :=
  { t with pitchOut := pitch, rollOut := roll, yawOut := yaw }

/-- `esc_set_all_us(ESC_PWM_ARM_US)` as the flight code calls it: the LEDC calls succeed. -/
def escArmAll (s : Firmware F) : Firmware F :=
  { s with esc := escSetAllUs (fun _ => .ok) escPwmArmUs s.esc }

end Init

variable {F : Type} [Add F] [Sub F] [Mul F] [Div F] [Neg F] [LT F] [DecidableLT F] [LE F]
  [DecidableLE F] [CNum F]

/-- The mixing branch of `flight_controller_update`: the PID steps, the motor commands, and the
values cached for telemetry. -/
def flightControllerMix (dt : F) (snap : Snapshot F) (s : Firmware F) : Firmware F :=
  let pitch := pidUpdate s.fc.pidPitch snap.pitchSp snap.pitch dt
  let roll := pidUpdate s.fc.pidRoll snap.rollSp snap.roll dt
  let yaw := pidUpdate s.fc.pidYaw snap.yawSp snap.yawRate dt
  let motors := motorMix snap.throttle pitch.2 roll.2 yaw.2
  { s with
    fc := { s.fc with pidPitch := pitch.1, pidRoll := roll.1, pidYaw := yaw.1 }
    esc := escSetMotorsUs (fun _ => .ok) motors.fl motors.fr motors.rl motors.rr s.esc
    telem := telemetrySetPidOutputs pitch.2 roll.2 yaw.2 (telemetrySetMotorValues motors s.telem) }

def flightControllerUpdate (now : ℕ) (snap : Snapshot F) (s : Firmware F) : Firmware F :=
  let nowUs := UInt32.ofNat now
  let dt : F := guardedDt nowUs s.fc.lastUpdateUs
  let s := { s with fc := { s.fc with lastUpdateUs := nowUs } }
  if snap.throttle ≤ escPwmSpinUs then escArmAll (flightControllerResetIntegrals s)
  else flightControllerMix dt snap s

end EdnaDrone
