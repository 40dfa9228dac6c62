import EdnaDrone.Pid
import EdnaDrone.Esc

/-!
# The state of the firmware

One record holds the shared globals of `main.c` and the file-scope statics of the components. The
flight control task reads the shared state in two critical sections and acts afterwards, so its
local variables are part of the state: `FcTask` says where the task stands in its loop.
-/

namespace EdnaDrone

open CNum

/-- The shared globals of `main.c`. -/
structure Globals (F : Type) where
  pitchDeg : F
  rollDeg : F
  yawRate : F
  throttle : ℤ
  motorsKilled : Bool
  pitchSp : F
  rollSp : F
  yawSp : F

/-- The statics of `controller.c`. -/
structure ControllerState where
  connected : Bool
  throttleUs : ℤ

/-- The statics of `flight_controller.c`. -/
structure FlightController (F : Type) where
  pidPitch : PidState F
  pidRoll : PidState F
  pidYaw : PidState F
  lastUpdateUs : UInt32

/-- `struct sockaddr_in`: address and port. -/
structure SockAddr where
  addr : UInt32
  port : UInt16
  deriving DecidableEq

/-- The statics of `telemetry.c`. -/
structure TelemetryState (F : Type) where
  mFl : ℕ
  mFr : ℕ
  mRl : ℕ
  mRr : ℕ
  pitchOut : F
  rollOut : F
  yawOut : F
  client : SockAddr
  clientSet : Bool

/-- The statics of `wifi_server.c`. -/
structure WifiServer where
  sock : ℤ
  clientAddr : SockAddr
  clientKnown : Bool

/-- What one iteration of `flight_ctrl_task` reads of the shared state. -/
structure Snapshot (F : Type) where
  pitch : F
  roll : F
  yawRate : F
  throttle : ℤ
  pitchSp : F
  rollSp : F
  yawSp : F
  killed : Bool

/-- Where `flight_ctrl_task` stands. -/
inductive FcTask (F : Type) where
  | start
  | wait
  /-- The section under `imu_mutex` is done. -/
  | gotImu (pitch roll yawRate : F)
  | gotSetpoint (snap : Snapshot F)

structure Firmware (F : Type) where
  globals : Globals F
  ctrl : ControllerState
  fc : FlightController F
  esc : EscState
  telem : TelemetryState F
  wifi : WifiServer
  task : FcTask F
  /-- History: the snapshot of the latest iteration that got both mutexes and ran to its end. -/
  lastTick : Option (Snapshot F)

variable {F : Type} [CNum F]

/-- A `pid_state_t` in zero-initialised static storage. -/
def pidZero : PidState F :=
  ⟨ofRat 0, ofRat 0, ofRat 0, ofRat 0, ofRat 0, ofRat 0, ofRat 0⟩

/-- The state when `app_main` has called `esc_arm` and opened the UDP socket. -/
def boot (sock : ℤ) : Firmware F where
  globals :=
    { pitchDeg := ofRat 0, rollDeg := ofRat 0, yawRate := ofRat 0
      throttle := escPwmArmUs, motorsKilled := false
      pitchSp := ofRat 0, rollSp := ofRat 0, yawSp := ofRat 0 }
  ctrl := { connected := false, throttleUs := escPwmSpinUs }
  fc := { pidPitch := pidZero, pidRoll := pidZero, pidYaw := pidZero, lastUpdateUs := 0 }
  esc := escArm (fun _ => .ok) escInit
  telem :=
    { mFl := 1000, mFr := 1000, mRl := 1000, mRr := 1000
      pitchOut := ofRat 0, rollOut := ofRat 0, yawOut := ofRat 0
      client := ⟨0, 0⟩, clientSet := false }
  wifi := { sock := sock, clientAddr := ⟨0, 0⟩, clientKnown := false }
  task := .start
  lastTick := none

end EdnaDrone
