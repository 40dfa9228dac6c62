import EdnaDrone.Telemetry

/-!
# The datagrams of the two consoles

`send_pid_update` of the Tauri console (`lib.rs`) and `UDPClient.send_pid` of the Python scripts. How
`serde_json` prints an `f32` and how `json.dumps` prints a `float` is a parameter; the strings they
print are the three axis names and the keys, which need no escapes.
-/

namespace EdnaDrone

open Lib CNum

/-! ## `lib.rs` -/

section Generic

variable {F : Type}

/-- `serde_json::to_vec` of an update. -/
def updateVec (ser : F → Bytes) (axis : Bytes) (g : Gains F) : Bytes :=
  ascii "\x7b\"axis\":\"" ++ axis ++ ascii "\",\"kp\":" ++ ser g.kp ++
    ascii ",\"ki\":" ++ ser g.ki ++ ascii ",\"kd\":" ++ ser g.kd ++ ascii "\x7d"

/-- `send_pid_update` for any number type: the payload handed to the socket, or the error. `runtime` is
`none` when the lock is poisoned, and else says whether the console is connected. -/
def sendUpdate [LT F] [DecidableLT F] [CNum F] (ser : F → Bytes) (runtime : Option Bool)
    (axis : Bytes) (g : Gains F) : Except String Bytes :=
  if ¬ (axis = ascii "pitch" ∨ axis = ascii "roll" ∨ axis = ascii "yaw") then
    .error "Axis must be pitch, roll, or yaw"
  else if g.kp < ofRat 0 ∨ g.ki < ofRat 0 ∨ g.kd < ofRat 0 then
    .error "PID gains must be zero or greater"
  else
    match runtime with
    | none => .error "Telemetry state lock failed"
    | some false => .error "Telemetry is not connected"
    | some true => .ok (updateVec ser axis g)

end Generic

structure PidUpdate where
  axis : Bytes
  kp : CFloat
  ki : CFloat
  kd : CFloat

def PidUpdate.toVec (serF32 : CFloat → Bytes) (u : PidUpdate) : Bytes :=
  updateVec serF32 u.axis ⟨u.kp, u.ki, u.kd⟩

/-- `send_pid_update`. -/
def sendPidUpdate (serF32 : CFloat → Bytes) (runtime : Option Bool) (u : PidUpdate) :
    Except String Bytes :=
  sendUpdate serF32 runtime u.axis ⟨u.kp, u.ki, u.kd⟩

/-! ## `udp_client.py` -/

/-- `UDPClient.send_pid`: `json.dumps` with its default separators, and a newline. -/
def sendPid (repr : CDouble → Bytes) (axis : Axis) (kp ki kd : CDouble) : Bytes :=
  ascii "\x7b\"axis\": \"" ++ axis.text ++ ascii "\", \"kp\": " ++ repr kp ++
    ascii ", \"ki\": " ++ repr ki ++ ascii ", \"kd\": " ++ repr kd ++ ascii "\x7d\n"

def toFloat : CDouble → CFloat
  | .nan => .nan
  | .inf s => .inf s
  | .fin s a => .ofSign s a

end EdnaDrone
