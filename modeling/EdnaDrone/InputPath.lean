import EdnaDrone.Firmware
import EdnaDrone.XboxOne

/-!
# From a packet of the controller to the setpoints

`uni_bt_bredr.c` takes the packets of the pad, `uni_hid_parser.c` reads the reports in them,
`uni_gamepad.c` exchanges buttons and axes as the mappings say, and `uni_hid_device.c` hands the result to
the platform. The mappings can be switched over the air. One pad is modelled, with the state of the drone
beside it.
-/

namespace EdnaDrone

open Lib CNum

/-! ## `uni_gamepad.c` -/

/-- `uni_gamepad_mappings_type_t`. -/
inductive MappingsType where
  | xbox
  | switch
  | custom
  deriving DecidableEq

/-- `uni_gamepad_mappings_t`: each entry is the number of a button, an axis or a pedal. -/
structure GamepadMappings where
  dpadUp : UInt8
  dpadDown : UInt8
  dpadLeft : UInt8
  dpadRight : UInt8
  buttonA : UInt8
  buttonB : UInt8
  buttonX : UInt8
  buttonY : UInt8
  buttonShoulderL : UInt8
  buttonShoulderR : UInt8
  buttonTriggerL : UInt8
  buttonTriggerR : UInt8
  buttonThumbL : UInt8
  buttonThumbR : UInt8
  miscButtonSelect : UInt8
  miscButtonStart : UInt8
  miscButtonSystem : UInt8
  miscButtonCapture : UInt8
  axisX : UInt8
  axisY : UInt8
  axisRx : UInt8
  axisRy : UInt8
  axisXInverted : Bool
  axisYInverted : Bool
  axisRxInverted : Bool
  axisRyInverted : Bool
  brake : UInt8
  throttle : UInt8

/-- The static `map` before a call of `uni_gamepad_set_mappings`, and nothing in the firmware calls it. -/
def zeroMappings : GamepadMappings where
  dpadUp := 0
  dpadDown := 0
  dpadLeft := 0
  dpadRight := 0
  buttonA := 0
  buttonB := 0
  buttonX := 0
  buttonY := 0
  buttonShoulderL := 0
  buttonShoulderR := 0
  buttonTriggerL := 0
  buttonTriggerR := 0
  buttonThumbL := 0
  buttonThumbR := 0
  miscButtonSelect := 0
  miscButtonStart := 0
  miscButtonSystem := 0
  miscButtonCapture := 0
  axisX := 0
  axisY := 0
  axisRx := 0
  axisRy := 0
  axisXInverted := false
  axisYInverted := false
  axisRxInverted := false
  axisRyInverted := false
  brake := 0
  throttle := 0

section Remap

variable [WideShift]

/-- `BIT(n)`. -/
def bit (n : UInt8) : UInt32 := shiftLeft 1 n.toUInt32

/-- The bits that are set where a mask of the table is met. -/
def remapBits {α : Type} [DecidableEq α] [OfNat α 0] [AndOp α] [OrOp α] (narrow : UInt32 → α) (bits : α)
    (table : List (α × UInt8)) : α :=
  table.foldl (fun acc e => if bits &&& e.1 ≠ 0 then acc ||| narrow (bit e.2) else acc) 0

/-- `get_mappings_value_for_axis`. -/
def FullGamepad.axis (gp : FullGamepad) (axisType : UInt8) : ℤ :=
  [gp.axisX, gp.axisY, gp.axisRx, gp.axisRy].getD axisType.toNat (-1)

/-- `get_mappings_value_for_pedal`. -/
def FullGamepad.pedal (gp : FullGamepad) (pedalType : UInt8) : Int32 :=
  [gp.brake, gp.throttle].getD pedalType.toNat (-1)

/-- An axis of 32 bits, inverted if so mapped. -/
def invertIf (inverted : Bool) (axis : ℤ) : ℤ :=
  if inverted then (-(Int32.ofInt axis)).toInt else axis

/-- The part of `uni_gamepad_remap` for Nintendo's layout: A and B change places, and so do X and Y. -/
def FullGamepad.remapSwitch (gp : FullGamepad) : FullGamepad :=
  let swap (new mask other : UInt16) := if gp.buttons &&& mask ≠ 0 then new ||| other else new
  let cleared := gp.buttons &&& ~~~(buttonA ||| buttonB ||| buttonX ||| buttonY)
  { gp with
    buttons := swap (swap (swap (swap cleared buttonA buttonB) buttonB buttonA) buttonX buttonY)
      buttonY buttonX }

/-- The part of it for mappings of the user. -/
def FullGamepad.remapCustom (map : GamepadMappings) (gp : FullGamepad) : FullGamepad where
  buttons := remapBits UInt32.toUInt16 gp.buttons
    [(buttonA, map.buttonA), (buttonB, map.buttonB), (buttonX, map.buttonX), (buttonY, map.buttonY),
      (buttonShoulderL, map.buttonShoulderL), (buttonShoulderR, map.buttonShoulderR),
      (buttonTriggerL, map.buttonTriggerL), (buttonTriggerR, map.buttonTriggerR),
      (buttonThumbL, map.buttonThumbL), (buttonThumbR, map.buttonThumbR)]
  dpad := remapBits UInt32.toUInt8 gp.dpad
    [(dpadUp, map.dpadUp), (dpadDown, map.dpadDown), (dpadLeft, map.dpadLeft),
      (dpadRight, map.dpadRight)]
  miscButtons := remapBits UInt32.toUInt8 gp.miscButtons
    [(miscButtonSystem, map.miscButtonSystem), (miscButtonSelect, map.miscButtonSelect),
      (miscButtonStart, map.miscButtonStart), (miscButtonCapture, map.miscButtonCapture)]
  axisX := invertIf map.axisXInverted (gp.axis map.axisX)
  axisY := invertIf map.axisYInverted (gp.axis map.axisY)
  axisRx := invertIf map.axisRxInverted (gp.axis map.axisRx)
  axisRy := invertIf map.axisRyInverted (gp.axis map.axisRy)
  brake := gp.pedal map.brake
  throttle := gp.pedal map.throttle

/-- `uni_gamepad_remap`. -/
def uniGamepadRemap (mappingsType : MappingsType) (map : GamepadMappings) (gp : FullGamepad) :
    FullGamepad :=
  match mappingsType with
  | .xbox => gp
  | .switch => gp.remapSwitch
  | .custom => gp.remapCustom map

end Remap

/-! ## The path -/

/-- The pad and its connection, the statics of `uni_gamepad.c` and the drone. -/
structure InputPath (F : Type) where
  device : XboxDevice
  /-- The connection is in `UNI_BT_CONN_STATE_DEVICE_READY`. -/
  ready : Bool
  mappingsType : MappingsType
  map : GamepadMappings
  firmware : Firmware F

/-- The channel of a packet, as the connection of the pad knows it. -/
inductive Channel where
  | control
  | interrupt
  | unknown
  deriving DecidableEq

/-- The gamepad callback, which the path calls itself. -/
def Event.IsGamepad {F : Type} : Event F → Prop
  | .gamepad _ _ => True
  | _ => False

inductive InputEvent (F : Type) where
  /-- A packet on an L2CAP channel, in the memory that it lies in, with the outcome of taking
  `setpoint_mutex` in the callback. -/
  | packet (channel : Channel) (packet : ℕ → UInt8) (size : UInt16) (take : Bool)
  /-- A write to the characteristic of the mappings. -/
  | writeMappings (buffer : Bytes) (offset : ℕ)
  | setReady (ready : Bool)
  | task (e : Event F) (he : ¬ e.IsGamepad)

/-- The first byte of a packet with an input report. -/
def hidDataInput : UInt8 := 0xa1

section Step

variable {F : Type} [Add F] [Sub F] [Mul F] [Div F] [Neg F] [LT F] [DecidableLT F] [LE F]
  [DecidableLE F] [CNum F] [CText F] [WideShift]

/-- `uni_hid_device_process_controller`; the platform ignores the system button. -/
def uniHidDeviceProcessController (take : Bool) (s : InputPath F) : InputPath F :=
  if s.ready then
    let gamepad := uniGamepadRemap s.mappingsType s.map s.device.gamepad
    let device :=
      if s.device.klass = .gamepad then { s.device with gamepad := gamepad } else s.device
    { s with device := device, firmware := onGamepadData device.controller take s.firmware }
  else s

/-- `uni_bt_bredr_on_l2cap_data_packet`. The pad has no parser for feature reports. -/
def onL2capDataPacket (channel : Channel) (packet : ℕ → UInt8) (size : UInt16) (take : Bool)
    (s : InputPath F) : Option (InputPath F) :=
  match channel with
  | .unknown | .control => some s
  | .interrupt =>
    if size < 2 then some s
    else if packet 0 ≠ hidDataInput then some s
    else
      (xboxParse s.device (fun i => packet (i + 1)) (size - 1)).map fun device =>
        uniHidDeviceProcessController take { s with device := device }

/-- The write to the characteristic `AC07` of the service; what it refuses changes nothing. -/
def onMappingsWritten (buffer : Bytes) (offset : ℕ) (s : InputPath F) : InputPath F :=
  match buffer with
  | [b] =>
    if offset ≠ 0 then s
    else
      match [MappingsType.xbox, .switch, .custom][b.toNat]? with
      | none => s
      | some t => { s with mappingsType := t }
  | _ => s

/-- A step; a failed assertion in the parser ends the run. -/
def inputStep (s : Option (InputPath F)) : InputEvent F → Option (InputPath F)
  | .packet channel packet size take => s.bind (onL2capDataPacket channel packet size take)
  | .writeMappings buffer offset => s.map (onMappingsWritten buffer offset)
  | .setReady ready => s.map fun s => { s with ready := ready }
  | .task e _ => s.map fun s => { s with firmware := step s.firmware e }

/-- The start: a pad has connected, and nothing has been received from it. -/
def inputStart (sock : ℤ) (device : XboxDevice) : InputPath F where
  device := device
  ready := false
  mappingsType := .xbox
  map := zeroMappings
  firmware := boot sock

abbrev inputRun (sock : ℤ) (device : XboxDevice) (es : List (InputEvent F)) : Option (InputPath F) :=
  runFrom inputStep (some (inputStart sock device)) es

end Step

end EdnaDrone
