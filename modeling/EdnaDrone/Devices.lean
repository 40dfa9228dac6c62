import EdnaDrone.Firmware
import Mathlib.Data.Finset.Insert

/-!
# `uni_hid_device.c`: the devices behind the connection callbacks

bluepad32 keeps a record with a flag `conn.connected` for each device, and tells the platform when a
device connects or disconnects. `controller.c` has one flag for all of them. The devices are of any
type `ι`; how many there can be does not matter, and `NULL` is none of them. A virtual child is
disconnected before its parent, as an event of its own.
-/

namespace EdnaDrone

open Lib CNum

/-- The firmware beside the records of bluepad32. -/
structure DeviceSystem (ι F : Type) where
  /-- The devices whose `conn.connected` is set. -/
  devices : Finset ι
  firmware : Firmware F

/-- A callback of the platform on a connection. -/
def Event.IsConnection {F : Type} : Event F → Prop
  | .connected => True
  | .disconnected _ => True
  | _ => False

inductive DeviceEvent (ι F : Type) where
  /-- `uni_hid_device_connect`. -/
  | connect (d : ι)
  /-- `uni_hid_device_disconnect`; `take` is for `setpoint_mutex` in the callback. -/
  | disconnect (d : ι) (take : Bool)
  /-- A step of a task that is no connection callback. -/
  | task (e : Event F) (he : ¬ e.IsConnection)

def controllerIsConnected {F : Type} (s : Firmware F) : ℤ := if s.ctrl.connected then 1 else 0

section Step

variable {ι F : Type} [DecidableEq ι] [Add F] [Sub F] [Mul F] [Div F] [Neg F] [LT F] [DecidableLT F]
  [LE F] [DecidableLE F] [CNum F] [CText F]

/-- The platform is told nothing about the device but that it has called. -/
def uniHidDeviceOnConnected (connected take : Bool) (s : Firmware F) : Firmware F :=
  if connected then onConnected s else onDisconnected take s

def uniHidDeviceConnect (d : ι) (s : DeviceSystem ι F) : DeviceSystem ι F where
  devices := insert d s.devices
  firmware := uniHidDeviceOnConnected true false s.firmware

/-- Only a device that was connected is reported. -/
def uniHidDeviceDisconnect (d : ι) (take : Bool) (s : DeviceSystem ι F) : DeviceSystem ι F where
  devices := s.devices.erase d
  firmware :=
    if d ∈ s.devices then uniHidDeviceOnConnected false take s.firmware else s.firmware

def deviceStep (s : DeviceSystem ι F) : DeviceEvent ι F → DeviceSystem ι F
  | .connect d => uniHidDeviceConnect d s
  | .disconnect d take => uniHidDeviceDisconnect d take s
  | .task e _ => { s with firmware := step s.firmware e }

variable (ι) in
def deviceStart (sock : ℤ) : DeviceSystem ι F := ⟨∅, boot sock⟩

abbrev deviceRun (sock : ℤ) (es : List (DeviceEvent ι F)) : DeviceSystem ι F :=
  runFrom deviceStep (deviceStart ι sock) es

end Step

end EdnaDrone
