import EdnaDrone.Lib.Run
import EdnaDrone.Controller
import EdnaDrone.FlightController
import EdnaDrone.Telemetry

/-!
# `main.c`: the tasks and their interleaving

A run of the firmware is a list of events, each of them one indivisible step of one task: a whole
callback of the Bluetooth task, the publication of an attitude by `imu_task`, a datagram received or
a packet sent by `telemetry_task`, and the sections of `flight_ctrl_task`. Whether a mutex is
obtained is part of the event, so a run may let any acquisition fail at any moment.
-/

namespace EdnaDrone

open Lib CNum

/-- A step of one task. -/
inductive Event (F : Type) where
  /-- `on_gamepad_data`, with the outcome of taking `setpoint_mutex`. -/
  | gamepad (ctl : UniController) (take : Bool)
  | connected
  | disconnected (take : Bool)
  /-- `imu_task` publishes the filtered angles and the yaw rate under `imu_mutex`. -/
  | imu (pitch roll yawRate : F) (take : Bool)
  /-- `flight_ctrl_task` runs `flight_controller_init`. -/
  | fcInit (now : ℕ)
  /-- `flight_ctrl_task` tries `imu_mutex` at the head of its loop. -/
  | fcTakeImu (take : Bool)
  /-- `flight_ctrl_task` tries `setpoint_mutex`. -/
  | fcTakeSetpoint (take : Bool)
  /-- `flight_ctrl_task` runs the rest of its loop body at the timer reading `now`. -/
  | fcAct (now : ℕ)
  /-- A datagram is received by `telemetry_receive_pid_updates`. -/
  | recv (src : SockAddr) (data : Bytes)
  | send (takeImu takeSetpoint : Bool)

section Sections

variable {F : Type}

/-- What the section under `setpoint_mutex` completes the snapshot with. -/
def Globals.snapshot (g : Globals F) (pitch roll yawRate : F) : Snapshot F :=
  { pitch := pitch, roll := roll, yawRate := yawRate, throttle := g.throttle
    pitchSp := g.pitchSp, rollSp := g.rollSp, yawSp := g.yawSp, killed := g.motorsKilled }

def flightCtrlTakeImu (take : Bool) (s : Firmware F) : Firmware F :=
  match s.task with
  | .wait =>
    if take then
      { s with task := .gotImu s.globals.pitchDeg s.globals.rollDeg s.globals.yawRate }
    else s
  | _ => s

/-- The section under `setpoint_mutex`; without the mutex the iteration ends here. -/
def flightCtrlTakeSetpoint (take : Bool) (s : Firmware F) : Firmware F :=
  match s.task with
  | .gotImu pitch roll yawRate =>
    { s with task := if take then .gotSetpoint (s.globals.snapshot pitch roll yawRate) else .wait }
  | _ => s

def imuPublish [Sub F] [CNum F] (pitch roll yawRate : F) (take : Bool) (s : Firmware F) :
    Firmware F :=
  if take then
    { s with
      globals :=
        { s.globals with
          pitchDeg := pitch - ofRat imuPitchOffsetDeg
          rollDeg := roll - ofRat imuRollOffsetDeg
          yawRate := yawRate } }
  else s

/-- The safety cutoff on the attitude. -/
def Snapshot.angleExceeded [LT F] [Neg F] [CNum F] (snap : Snapshot F) : Prop :=
  ofRat angleLimitDeg < snap.pitch ∨ snap.pitch < -ofRat angleLimitDeg ∨
    ofRat angleLimitDeg < snap.roll ∨ snap.roll < -ofRat angleLimitDeg

instance [LT F] [DecidableLT F] [Neg F] [CNum F] (snap : Snapshot F) :
    Decidable snap.angleExceeded := by
  unfold Snapshot.angleExceeded; infer_instance

end Sections

variable {F : Type} [Add F] [Sub F] [Mul F] [Div F] [Neg F] [LT F] [DecidableLT F] [LE F]
  [DecidableLE F] [CNum F] [CText F]

/-- The loop body of `flight_ctrl_task` after the two sections. -/
def flightCtrlBody (now : ℕ) (snap : Snapshot F) (s : Firmware F) : Firmware F :=
  if snap.killed then flightControllerResetIntegrals (escArmAll s)
  else if snap.angleExceeded then flightControllerResetIntegrals (escArmAll s)
  else
    let s := if snap.throttle ≤ escPwmSpinUs then flightControllerResetIntegrals s else s
    flightControllerUpdate now snap s

def flightCtrlAct (now : ℕ) (s : Firmware F) : Firmware F :=
  match s.task with
  | .gotSetpoint snap =>
    { flightCtrlBody now snap s with task := .wait, lastTick := some snap }
  | _ => s

def flightCtrlStart (now : ℕ) (s : Firmware F) : Firmware F :=
  match s.task with
  | .start => { flightControllerInit now s with task := .wait }
  | _ => s

/-- One step of the firmware. An event that its task is not ready for changes nothing. -/
def step (s : Firmware F) : Event F → Firmware F
  | .gamepad ctl take => onGamepadData ctl take s
  | .connected => onConnected s
  | .disconnected take => onDisconnected take s
  | .imu pitch roll yawRate take => imuPublish pitch roll yawRate take s
  | .fcInit now => flightCtrlStart now s
  | .fcTakeImu take => flightCtrlTakeImu take s
  | .fcTakeSetpoint take => flightCtrlTakeSetpoint take s
  | .fcAct now => flightCtrlAct now s
  | .recv src data => telemetryReceivePidUpdates (some (src, data)) s
  -- `telemetry_send` writes nothing that a task reads
  | .send _ _ => s

/-- The state of the firmware after a run from boot. -/
abbrev run (sock : ℤ) (es : List (Event F)) : Firmware F := runFrom step (boot sock) es

end EdnaDrone
