import EdnaDrone.Lib.LittleEndian
import EdnaDrone.Controller

/-!
# `uni_controller.h`: the data of a device and its reading as a gamepad's

The data of all classes lie in one union, and bluepad32 hands the whole record of a device to
`on_controller_data`. `on_gamepad_data` takes the address of `gamepad` whatever the class is, so the
bytes of a mouse, a keyboard or a balance board are read at the offsets of `uni_gamepad_t`. The parsers
clear the record before each report, so the bytes behind the device's own data are zero.
-/

namespace EdnaDrone

open Lib

structure UniMouse where
  deltaX : Int32
  deltaY : Int32
  buttons : UInt16
  scrollWheel : Int8
  miscButtons : UInt8

/-- `uni_keyboard_t`; nothing writes its reserved bytes. -/
structure UniKeyboard where
  modifiers : UInt8
  pressedKeys : Vector UInt8 10

structure UniBalanceBoard where
  tr : UInt16
  br : UInt16
  tl : UInt16
  bl : UInt16
  temperature : Int32

def UniMouse.bytes (m : UniMouse) : Bytes :=
  toLE 4 m.deltaX.toUInt32.toNat ++ toLE 4 m.deltaY.toUInt32.toNat ++ toLE 2 m.buttons.toNat ++
    [m.scrollWheel.toUInt8, m.miscButtons]

def UniKeyboard.bytes (kb : UniKeyboard) : Bytes :=
  kb.modifiers :: (kb.pressedKeys.toList ++ List.replicate 16 0)

def UniBalanceBoard.bytes (bb : UniBalanceBoard) : Bytes :=
  toLE 2 bb.tr.toNat ++ toLE 2 bb.br.toNat ++ toLE 2 bb.tl.toNat ++ toLE 2 bb.bl.toNat ++
    toLE 4 bb.temperature.toUInt32.toNat

/-- `&ctl->gamepad`: the fields at their offsets in the union. The directional pad is at offset 0 with
three bytes of padding behind it, and the two pedals are at 20 and 24. -/
def gamepadView (union : Bytes) : UniGamepad where
  axisX := (i32At union 4).toInt
  axisY := (i32At union 8).toInt
  axisRx := (i32At union 12).toInt
  axisRy := (i32At union 16).toInt
  buttons := u16At union 28

/-- What the parser of a device has written into its record. -/
inductive ControllerData where
  | gamepad (gp : UniGamepad)
  | mouse (m : UniMouse)
  | keyboard (kb : UniKeyboard)
  | balanceBoard (bb : UniBalanceBoard)

/-- The record as `on_gamepad_data` reads it. -/
def ControllerData.toController : ControllerData → UniController
  | .gamepad gp => ⟨.gamepad, gp⟩
  | .mouse m => ⟨.mouse, gamepadView m.bytes⟩
  | .keyboard kb => ⟨.keyboard, gamepadView kb.bytes⟩
  | .balanceBoard bb => ⟨.balanceBoard, gamepadView bb.bytes⟩

end EdnaDrone
