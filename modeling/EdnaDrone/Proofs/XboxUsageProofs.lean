import EdnaDrone.Proofs.HidAxisProofs
import EdnaDrone.Proofs.HidRoundTripProofs
import EdnaDrone.XboxOne

/-!
# The reports of the 4.8 descriptor

The descriptor that bluepad32 gives an Xbox controller has 23 input usages in three reports: the pad with
id 1, a system button with id 2 and the battery with id 4.
-/

namespace EdnaDrone

open Lib

/-- A usage of one field, with the main item and the globals it is read with. -/
def usageRow (flags : Int32) (id bitPos page usage : UInt16) (size : UInt8) (lo hi : Int32)
    (count : UInt8) : HidUsageItem × HidGlobals :=
  (⟨id, bitPos, page, usage, size, ⟨flags, 2, .main, 8, 1⟩, lo⟩, ⟨lo, hi, page, size, count, id.toUInt8⟩)

/-- The fifteen buttons of the pad. -/
def xboxButtonRows : List (HidUsageItem × HidGlobals) :=
  (List.range 15).map fun i =>
    usageRow 2 1 (104 + UInt16.ofNat i) 0x09 (1 + UInt16.ofNat i) 1 0 1 15

/-- The fields of the pad. -/
def xboxPadRows : List (HidUsageItem × HidGlobals) :=
  [usageRow 2 1 0 0x01 0x30 16 0 65535 2, usageRow 2 1 16 0x01 0x31 16 0 65535 2,
    usageRow 2 1 32 0x01 0x32 16 0 65535 2, usageRow 2 1 48 0x01 0x35 16 0 65535 2,
    usageRow 2 1 64 0x02 0xc5 10 0 1023 1, usageRow 2 1 80 0x02 0xc4 10 0 1023 1,
    usageRow 66 1 96 0x01 0x39 4 1 8 1] ++ xboxButtonRows ++ [usageRow 2 1 120 0x0c 0x224 1 0 1 1]

def xboxSystemRow : HidUsageItem × HidGlobals := usageRow 2 2 0 0x0c 0x223 1 0 1 1

def xboxBatteryRow : HidUsageItem × HidGlobals := usageRow 2 4 0 0x06 0x20 8 0 255 1

def xboxUsages : List (HidUsageItem × HidGlobals) := xboxPadRows ++ [xboxSystemRow, xboxBatteryRow]

set_option maxRecDepth 100000 in
/-- The walk over the descriptor, evaluated; none of it depends on the shifts that are left open. -/
theorem collect_xboxUsages : ∀ [WideShift],
    collect usageNext 40 (usageIteratorInit xboxHidDescriptor48Fw .input) = some xboxUsages := by
  intro inst
  cbv

theorem yields_xboxUsages [WideShift] :
    Yields usageNext (usageIteratorInit xboxHidDescriptor48Fw .input) xboxUsages :=
  yields_of_collect collect_xboxUsages

end EdnaDrone
