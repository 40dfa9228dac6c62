import EdnaDrone.Controller
import EdnaDrone.HidReport

/-!
# `uni_hid_parser_xboxone.c`: the usages of an Xbox controller

The controller reports its sticks as axes, its triggers as pedals, its directional pad as a hat and its
buttons one bit each. Firmware 3.1 and later ones give some usages another meaning. The controller starts
as a 3.1 if its descriptor is short, and turns into a 4.8 at the first usage that only that one has.
-/

namespace EdnaDrone

open Lib

/-- `uni_gamepad_t`; nothing here writes the gyro and the accelerometer. -/
structure FullGamepad extends UniGamepad where
  dpad : UInt8
  brake : Int32
  throttle : Int32
  miscButtons : UInt8
  deriving DecidableEq

/-- `enum xboxone_firmware`. -/
inductive XboxoneFirmware where
  | v31
  | v48
  | v5
  deriving DecidableEq

/-- The device and what the parser keeps in it. -/
structure XboxDevice where
  hidDescriptor : Bytes
  version : XboxoneFirmware
  klass : UniControllerClass
  gamepad : FullGamepad
  battery : UInt8
  deriving DecidableEq

/-- `uni_controller_t`, as the platform reads it. -/
def XboxDevice.controller (d : XboxDevice) : UniController := ⟨d.klass, d.gamepad.toUniGamepad⟩

def triggerButtonThreshold : Int32 := 32

def buttonA : UInt16 := 1
def buttonB : UInt16 := 2
def buttonY : UInt16 := 8
def buttonShoulderL : UInt16 := 16
def buttonShoulderR : UInt16 := 32
def buttonTriggerL : UInt16 := 64
def buttonTriggerR : UInt16 := 128
def buttonThumbL : UInt16 := 256
def buttonThumbR : UInt16 := 512

def miscButtonSystem : UInt8 := 1
def miscButtonSelect : UInt8 := 2
def miscButtonStart : UInt8 := 4
def miscButtonCapture : UInt8 := 8

def zeroGamepad : FullGamepad := ⟨⟨0, 0, 0, 0, 0⟩, 0, 0, 0, 0⟩

/-- `uni_hid_parser_xboxone_init_report`: each report holds the whole state. -/
def xboxoneInitReport (d : XboxDevice) : XboxDevice :=
  { d with klass := .gamepad, gamepad := zeroGamepad, battery := 0 }

/-! ## One usage -/

def FullGamepad.press (gp : FullGamepad) (mask : UInt16) (value : Int32) : FullGamepad :=
  if value ≠ 0 then { gp with buttons := gp.buttons ||| mask } else gp

def FullGamepad.pressMisc (gp : FullGamepad) (mask : UInt8) (value : Int32) : FullGamepad :=
  if value ≠ 0 then { gp with miscButtons := gp.miscButtons ||| mask } else gp

def XboxDevice.withGamepad (d : XboxDevice) (gp : FullGamepad) : XboxDevice := { d with gamepad := gp }

/-- The usages of the generic desktop page that mean the same in all versions. -/
def desktopUsage [WideShift] (gp : FullGamepad) (g : HidGlobals) (usage : UInt16) (value : Int32) :
    Option FullGamepad :=
  match usage.toNat with
  | 0x30 => (processAxis g value).map fun x => { gp with axisX := x.toInt }
  | 0x31 => (processAxis g value).map fun y => { gp with axisY := y.toInt }
  | 0x39 => some { gp with dpad := hatToDpad (processHat g value) }
  | 0x85 => some (gp.pressMisc miscButtonSystem value)
  | 0x90 | 0x91 | 0x92 | 0x93 => some { gp with dpad := processDpad usage value gp.dpad }
  | _ => some gp

/-- `parse_usage_firmware_v3_1`. -/
def parseUsageFirmwareV31 [WideShift] (d : XboxDevice) (g : HidGlobals) (f : HidField) :
    Option XboxDevice :=
  let gp := d.gamepad
  match f.usagePage.toNat with
  | 0x01 =>
    match f.usage.toNat with
    | 0x32 => (processPedal g f.value).map fun v => d.withGamepad { gp with brake := v }
    | 0x33 => (processAxis g f.value).map fun v => d.withGamepad { gp with axisRx := v.toInt }
    | 0x34 => (processAxis g f.value).map fun v => d.withGamepad { gp with axisRy := v.toInt }
    | 0x35 => (processPedal g f.value).map fun v => d.withGamepad { gp with throttle := v }
    | _ => (desktopUsage gp g f.usage f.value).map d.withGamepad
  | 0x06 =>
    if f.usage = 0x20 then some { d with battery := f.value.toUInt32.toUInt8 } else some d
  | 0x09 =>
    match f.usage.toNat with
    | 0x01 => some (d.withGamepad (gp.press buttonA f.value))
    | 0x02 => some (d.withGamepad (gp.press buttonB f.value))
    | 0x03 => some (d.withGamepad (gp.press buttonX f.value))
    | 0x04 => some (d.withGamepad (gp.press buttonY f.value))
    | 0x05 => some (d.withGamepad (gp.press buttonShoulderL f.value))
    | 0x06 => some (d.withGamepad (gp.press buttonShoulderR f.value))
    | 0x07 => some (d.withGamepad (gp.pressMisc miscButtonSelect f.value))
    | 0x08 => some (d.withGamepad (gp.pressMisc miscButtonStart f.value))
    | 0x09 => some (d.withGamepad (gp.press buttonThumbL f.value))
    | 0x0a => some (d.withGamepad (gp.press buttonThumbR f.value))
    -- only a 4.8 has this button
    | 0x0f => some { d with version := .v48 }
    | _ => some d
  | _ => some d

/-- A pedal, and the trigger button it stands for. -/
def FullGamepad.pullTrigger (gp : FullGamepad) (mask : UInt16) (v : Int32) : FullGamepad :=
  if triggerButtonThreshold ≤ v then { gp with buttons := gp.buttons ||| mask } else gp

/-- `parse_usage_firmware_v4_v5`. -/
def parseUsageFirmwareV4V5 [WideShift] (d : XboxDevice) (g : HidGlobals) (f : HidField) :
    Option XboxDevice :=
  let gp := d.gamepad
  match f.usagePage.toNat with
  | 0x01 =>
    match f.usage.toNat with
    | 0x32 => (processAxis g f.value).map fun v => d.withGamepad { gp with axisRx := v.toInt }
    | 0x35 => (processAxis g f.value).map fun v => d.withGamepad { gp with axisRy := v.toInt }
    | _ => (desktopUsage gp g f.usage f.value).map d.withGamepad
  | 0x02 =>
    match f.usage.toNat with
    | 0xc4 => (processPedal g f.value).map fun v =>
      d.withGamepad ({ gp with throttle := v }.pullTrigger buttonTriggerR v)
    | 0xc5 => (processPedal g f.value).map fun v =>
      d.withGamepad ({ gp with brake := v }.pullTrigger buttonTriggerL v)
    | _ => some d
  | 0x06 =>
    if f.usage = 0x20 then some { d with battery := f.value.toUInt32.toUInt8 } else some d
  | 0x09 =>
    match f.usage.toNat with
    | 0x01 => some (d.withGamepad (gp.press buttonA f.value))
    | 0x02 => some (d.withGamepad (gp.press buttonB f.value))
    | 0x04 => some (d.withGamepad (gp.press buttonX f.value))
    | 0x05 => some (d.withGamepad (gp.press buttonY f.value))
    | 0x07 => some (d.withGamepad (gp.press buttonShoulderL f.value))
    | 0x08 => some (d.withGamepad (gp.press buttonShoulderR f.value))
    | 0x0b => some (d.withGamepad (gp.pressMisc miscButtonSelect f.value))
    | 0x0c => some (d.withGamepad (gp.pressMisc miscButtonStart f.value))
    | 0x0d => some (d.withGamepad (gp.pressMisc miscButtonSystem f.value))
    | 0x0e => some (d.withGamepad (gp.press buttonThumbL f.value))
    | 0x0f => some (d.withGamepad (gp.press buttonThumbR f.value))
    | _ => some d
  | 0x0c =>
    match f.usage.toNat with
    | 0xb2 => some { d with version := .v5, gamepad := gp.pressMisc miscButtonCapture f.value }
    | 0x224 => some (d.withGamepad (gp.pressMisc miscButtonSelect f.value))
    | _ => some d
  | _ => some d

/-- `uni_hid_parser_xboxone_parse_usage`. -/
def xboxoneParseUsage [WideShift] (d : XboxDevice) (g : HidGlobals) (f : HidField) :
    Option XboxDevice :=
  if d.version = .v31 then parseUsageFirmwareV31 d g f else parseUsageFirmwareV4V5 d g f

/-- The callbacks of the Xbox parser. -/
def xboxoneReportParser [WideShift] : ReportParser XboxDevice where
  initReport := some xboxoneInitReport
  parseInputReport := none
  parseUsage := some xboxoneParseUsage

/-- A report of an Xbox controller. -/
def xboxParse [WideShift] (d : XboxDevice) (report : ℕ → UInt8) (reportLen : UInt16) :
    Option XboxDevice :=
  uniHidParseInputReport xboxoneReportParser XboxDevice.hidDescriptor d report reportLen

/-- The version that `uni_hid_parser_xboxone_setup` assumes. -/
def xboxoneVersion (lowEnergy : Bool) (descriptorLen : ℕ) : XboxoneFirmware :=
  if lowEnergy then .v5 else if 330 < descriptorLen then .v48 else .v31

/-- `uni_hid_parser_xboxone_setup`, but for the call that makes the device ready. -/
def xboxoneSetup (lowEnergy : Bool) (d : XboxDevice) : XboxDevice :=
  { d with version := xboxoneVersion lowEnergy d.hidDescriptor.length }

/-- `xbox_hid_descriptor_4_8_fw`. -/
def xboxHidDescriptor48Fw : Bytes :=
  [0x05, 0x01, 0x09, 0x05, 0xa1, 0x01, 0x85, 0x01, 0x09, 0x01, 0xa1, 0x00, 0x09, 0x30, 0x09, 0x31, 0x15,
    0x00, 0x27, 0xff, 0xff, 0x00, 0x00, 0x95, 0x02, 0x75, 0x10, 0x81, 0x02, 0xc0, 0x09, 0x01, 0xa1, 0x00,
    0x09, 0x32, 0x09, 0x35, 0x15, 0x00, 0x27, 0xff, 0xff, 0x00, 0x00, 0x95, 0x02, 0x75, 0x10, 0x81, 0x02,
    0xc0, 0x05, 0x02, 0x09, 0xc5, 0x15, 0x00, 0x26, 0xff, 0x03, 0x95, 0x01, 0x75, 0x0a, 0x81, 0x02, 0x15,
    0x00, 0x25, 0x00, 0x75, 0x06, 0x95, 0x01, 0x81, 0x03, 0x05, 0x02, 0x09, 0xc4, 0x15, 0x00, 0x26, 0xff,
    0x03, 0x95, 0x01, 0x75, 0x0a, 0x81, 0x02, 0x15, 0x00, 0x25, 0x00, 0x75, 0x06, 0x95, 0x01, 0x81, 0x03,
    0x05, 0x01, 0x09, 0x39, 0x15, 0x01, 0x25, 0x08, 0x35, 0x00, 0x46, 0x3b, 0x01, 0x66, 0x14, 0x00, 0x75,
    0x04, 0x95, 0x01, 0x81, 0x42, 0x75, 0x04, 0x95, 0x01, 0x15, 0x00, 0x25, 0x00, 0x35, 0x00, 0x45, 0x00,
    0x65, 0x00, 0x81, 0x03, 0x05, 0x09, 0x19, 0x01, 0x29, 0x0f, 0x15, 0x00, 0x25, 0x01, 0x75, 0x01, 0x95,
    0x0f, 0x81, 0x02, 0x15, 0x00, 0x25, 0x00, 0x75, 0x01, 0x95, 0x01, 0x81, 0x03, 0x05, 0x0c, 0x0a, 0x24,
    0x02, 0x15, 0x00, 0x25, 0x01, 0x95, 0x01, 0x75, 0x01, 0x81, 0x02, 0x15, 0x00, 0x25, 0x00, 0x75, 0x07,
    0x95, 0x01, 0x81, 0x03, 0x05, 0x0c, 0x09, 0x01, 0x85, 0x02, 0xa1, 0x01, 0x05, 0x0c, 0x0a, 0x23, 0x02,
    0x15, 0x00, 0x25, 0x01, 0x95, 0x01, 0x75, 0x01, 0x81, 0x02, 0x15, 0x00, 0x25, 0x00, 0x75, 0x07, 0x95,
    0x01, 0x81, 0x03, 0xc0, 0x05, 0x0f, 0x09, 0x21, 0x85, 0x03, 0xa1, 0x02, 0x09, 0x97, 0x15, 0x00, 0x25,
    0x01, 0x75, 0x04, 0x95, 0x01, 0x91, 0x02, 0x15, 0x00, 0x25, 0x00, 0x75, 0x04, 0x95, 0x01, 0x91, 0x03,
    0x09, 0x70, 0x15, 0x00, 0x25, 0x64, 0x75, 0x08, 0x95, 0x04, 0x91, 0x02, 0x09, 0x50, 0x66, 0x01, 0x10,
    0x55, 0x0e, 0x15, 0x00, 0x26, 0xff, 0x00, 0x75, 0x08, 0x95, 0x01, 0x91, 0x02, 0x09, 0xa7, 0x15, 0x00,
    0x26, 0xff, 0x00, 0x75, 0x08, 0x95, 0x01, 0x91, 0x02, 0x65, 0x00, 0x55, 0x00, 0x09, 0x7c, 0x15, 0x00,
    0x26, 0xff, 0x00, 0x75, 0x08, 0x95, 0x01, 0x91, 0x02, 0xc0, 0x05, 0x06, 0x09, 0x20, 0x85, 0x04, 0x15,
    0x00, 0x26, 0xff, 0x00, 0x75, 0x08, 0x95, 0x01, 0x81, 0x02, 0xc0]

end EdnaDrone
