import EdnaDrone.Firmware

/-!
# The flight controller on its own

What reaches the flight controller are the iterations of `flight_ctrl_task`, with their timer readings
and the snapshots they take, and the datagrams that `telemetry_task` decodes. The other tasks decide
which of these there are and do nothing else to it.
-/

namespace EdnaDrone

open Lib CNum

inductive FlightEvent (F : Type) where
  /-- An iteration that gets both mutexes, and the timer reading when it acts. -/
  | tick (now : ℕ) (snap : Snapshot F)
  /-- An iteration that does not get a mutex. -/
  | missed
  /-- `telemetry_receive_pid_updates` on a datagram. -/
  | gains (data : Bytes)

section Observe

variable {F : Type}

/-- The timer reading of an iteration. -/
def FlightEvent.reading : FlightEvent F → Option ℕ
  | .tick now _ => some now
  | _ => none

/-- What a step of the firmware is to the flight controller. -/
def Firmware.flightEvent (s : Firmware F) : Event F → Option (FlightEvent F)
  | .fcTakeImu take =>
    match s.task with
    | .wait => if take then none else some .missed
    | _ => none
  | .fcTakeSetpoint take =>
    match s.task with
    | .gotImu _ _ _ => if take then none else some .missed
    | _ => none
  | .fcAct now =>
    match s.task with
    | .gotSetpoint snap => some (.tick now snap)
    | _ => none
  | .recv _ data => if s.wifi.sock < 0 ∨ recvBuf data = [] then none else some (.gains data)
  | _ => none

end Observe

variable {F : Type} [Add F] [Sub F] [Mul F] [Div F] [Neg F] [LT F] [DecidableLT F] [LE F]
  [DecidableLE F] [CNum F] [CText F]

def flightStep (s : Firmware F) : FlightEvent F → Firmware F
  | .tick now snap => flightCtrlBody now snap s
  | .missed => s
  | .gains data => { s with fc := applyPacket (parsePacket (cstr (recvBuf data))) s.fc }

/-- The state in which `flight_ctrl_task` enters its loop; the socket plays no part in what follows. -/
def flightStart (now : ℕ) : Firmware F := flightControllerInit now (boot 0)

abbrev flightRun (now : ℕ) (es : List (FlightEvent F)) : Firmware F :=
  runFrom flightStep (flightStart now) es

/-- The motor commands after an iteration. -/
def tickCommands (s : Firmware F) : FlightEvent F → Option (Motor → Option ℕ)
  | .tick now snap => some (flightStep s (.tick now snap)).esc.lastCommanded
  | _ => none

end EdnaDrone
