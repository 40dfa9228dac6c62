import EdnaDrone.HidUsages

/-!
# `btstack_hid_parser.c` and `uni_hid_parser.c`: the fields of an input report

The report is a piece of the memory of the Bluetooth stack, `report i` being the byte `i` places behind
its start, also for the `i` that lie behind its end. A division by zero ends the firmware like a failed
assertion: `none`. Signed arithmetic wraps around.
-/

namespace EdnaDrone

open Lib

/-- `btstack_hid_parser_t`. -/
structure HidParser where
  usageIterator : HidUsageIterator
  report : ℕ → UInt8
  reportLen : UInt16
  haveReportUsageReady : Bool
  descriptorUsageItem : HidUsageItem

def zeroUsageItem : HidUsageItem := ⟨0, 0, 0, 0, 0, zeroItem, 0⟩

/-- `btstack_hid_parser_init`; the parser itself lies on the stack, and its usage item is written before
it is read. -/
def hidParserInit (descriptor : Bytes) (reportType : HidReportType) (report : ℕ → UInt8)
    (reportLen : UInt16) : HidParser where
  usageIterator := usageIteratorInit descriptor reportType
  report := report
  reportLen := reportLen
  haveReportUsageReady := false
  descriptorUsageItem := zeroUsageItem

/-- A usage of another report. -/
def HidUsageItem.otherReport (item : HidUsageItem) (firstByte : UInt8) : Bool :=
  item.reportId ≠ hidReportIdUndefined && item.reportId ≠ firstByte.toUInt16

def HidParser.hasMoreBody [WideShift] (p : HidParser) : Round HidParser (Option HidParser) :=
  if p.haveReportUsageReady then .done (some p)
  else
    match p.usageIterator.hasMore with
    | none => .done none
    | some (it, false) => .done (some { p with usageIterator := it })
    | some (it, true) =>
      let p := { p with usageIterator := it.getItem, descriptorUsageItem := it.item }
      if p.descriptorUsageItem.otherReport (p.report 0) then .again p
      else .again { p with haveReportUsageReady := true }

/-- More rounds than any descriptor of this length makes the parser go. -/
def parseRounds (descriptor : Bytes) : ℕ :=
  (descriptor.length + 1) * (descriptor.length + 1) * 65536 + 2

/-- `btstack_hid_parser_has_more`. -/
def HidParser.hasMore [WideShift] (p : HidParser) : Option (HidParser × Bool) :=
  ((loop HidParser.hasMoreBody (parseRounds p.usageIterator.descriptor) p).getD none).map fun p =>
    (p, p.haveReportUsageReady)

/-- Where the field of a usage item starts in the report. -/
def HidUsageItem.startBit (item : HidUsageItem) : UInt16 :=
  if item.reportId ≠ hidReportIdUndefined then item.bitPos + 8 else item.bitPos

/-- The first byte that `btstack_hid_parser_get_field` reads. -/
def posStart (bitPos : UInt16) (reportLen : UInt16) : ℕ := min (bitPos >>> 3).toNat reportLen.toNat

/-- The last byte that it reads. -/
def posEnd (bitPos : UInt16) (size : UInt8) (reportLen : UInt16) : ℕ :=
  min ((bitPos.toUInt32 + size.toUInt32 - 1) >>> 3).toNat reportLen.toNat

/-- The bytes of a field, the first one being the least significant. -/
def multiByteValue [WideShift] (report : ℕ → UInt8) (start count : ℕ) : UInt32 :=
  (List.range count).foldl (fun value i =>
    value ||| shiftLeft (report (start + i)).toUInt32 (UInt32.ofNat (i * 8))) 0

def unsignedValue [WideShift] (report : ℕ → UInt8) (reportLen bitPos : UInt16) (size : UInt8) :
    UInt32 :=
  let start := posStart bitPos reportLen
  let bytesToRead := posEnd bitPos size reportLen + 1 - start
  (multiByteValue report start bytesToRead >>> (bitPos &&& 0x07).toUInt32) &&&
    (shiftLeft 1 size.toUInt32 - 1)

/-- What `btstack_hid_parser_get_field` returns. -/
structure HidField where
  usagePage : UInt16
  usage : UInt16
  value : Int32
  deriving DecidableEq

/-- The reading of a usage item in a report. -/
def HidUsageItem.field [WideShift] (item : HidUsageItem) (report : ℕ → UInt8) (reportLen : UInt16) :
    HidField :=
  let unsigned := unsignedValue report reportLen item.startBit item.size
  if item.descriptorItem.isVariable then
    let signed := decide (item.globalLogicalMinimum < 0) &&
      decide (unsigned &&& shiftLeft 1 (item.size.toUInt32 - 1) ≠ 0)
    { usagePage := item.usagePage
      usage := item.usage
      value :=
        if signed then (unsigned - shiftLeft 1 item.size.toUInt32).toInt32 else unsigned.toInt32 }
  else { usagePage := item.usagePage, usage := unsigned.toUInt16, value := 1 }

/-- `btstack_hid_parser_get_field`. -/
def HidParser.getField [WideShift] (p : HidParser) : HidParser × HidField :=
  ({ p with haveReportUsageReady := false }, p.descriptorUsageItem.field p.report p.reportLen)

/-! ## `uni_hid_parse_input_report` -/

/-- `hid_globals_t`. -/
structure HidGlobals where
  logicalMinimum : Int32
  logicalMaximum : Int32
  usagePage : UInt16
  reportSize : UInt8
  reportCount : UInt8
  reportId : UInt8
  deriving DecidableEq

def HidUsageIterator.globals (it : HidUsageIterator) : HidGlobals where
  logicalMinimum := it.globalLogicalMinimum
  logicalMaximum := it.globalLogicalMaximum
  usagePage := it.globalUsagePage
  reportSize := it.globalReportSize
  reportCount := it.globalReportCount
  reportId := it.globalReportId.toUInt8

section Parse

variable {D : Type} (parseUsage : D → HidGlobals → HidField → Option D)

/-- The loop body for what `btstack_hid_parser_has_more` has found. -/
def parseNext [WideShift] (d : D) : Option (HidParser × Bool) → Round (HidParser × D) (Option D)
  | none => .done none
  | some (_, false) => .done (some d)
  | some (p, true) =>
    let globals := p.usageIterator.globals
    let (p, field) := p.getField
    match parseUsage d globals field with
    | none => .done none
    | some d => .again (p, d)

/-- A round of the loop over the fields, with the parser and the device before and after it. -/
def parseBody [WideShift] (s : HidParser × D) : Round (HidParser × D) (Option D) :=
  parseNext parseUsage s.2 s.1.hasMore

/-- The loop over the fields of a report. -/
def parseFields [WideShift] (descriptor : Bytes) (report : ℕ → UInt8) (reportLen : UInt16) (d : D) :
    Option D :=
  (loop (parseBody parseUsage) (parseRounds descriptor)
    (hidParserInit descriptor .input report reportLen, d)).getD none

end Parse

/-- `uni_report_parser_t` as far as input reports go; a callback that is missing is `NULL`. -/
structure ReportParser (D : Type) where
  initReport : Option (D → D)
  parseInputReport : Option (D → (ℕ → UInt8) → UInt16 → D)
  parseUsage : Option (D → HidGlobals → HidField → Option D)

/-- `uni_hid_parse_input_report`. -/
def uniHidParseInputReport [WideShift] {D : Type} (rp : ReportParser D) (descriptor : D → Bytes)
    (d : D) (report : ℕ → UInt8) (reportLen : UInt16) : Option D :=
  let d := rp.initReport.elim d fun f => f d
  let d := rp.parseInputReport.elim d fun f => f d report reportLen
  rp.parseUsage.elim (some d) fun f => parseFields f (descriptor d) report reportLen d

/-! ## Readings of a field -/

/-- `AXIS_NORMALIZE_RANGE`. -/
def axisNormalizeRange : Int32 := 1024

/-- The largest value of a field. A maximum of -1 is taken for the largest unsigned value. -/
def HidGlobals.top [WideShift] (g : HidGlobals) : Int32 :=
  if g.logicalMaximum = -1 then (shiftLeft 1 g.reportSize.toUInt32).toInt32 - 1 else g.logicalMaximum

/-- The number of values of a field. -/
def HidGlobals.range [WideShift] (g : HidGlobals) : Int32 := g.top - g.logicalMinimum + 1

/-- `uni_hid_parser_process_axis`. -/
def processAxis [WideShift] (g : HidGlobals) (value : Int32) : Option Int32 :=
  let range := g.range
  let centered := value - range / 2 - g.logicalMinimum
  if range = 0 then none else some (centered * axisNormalizeRange / range)

/-- `uni_hid_parser_process_pedal`; the product and the quotient are unsigned. -/
def processPedal [WideShift] (g : HidGlobals) (value : Int32) : Option Int32 :=
  let range := g.range
  if range = 0 then none
  else some (value.toUInt32 * axisNormalizeRange.toUInt32 / range.toUInt32).toInt32

/-- `uni_hid_parser_process_hat`; a value outside the logical range is a null value. -/
def processHat (g : HidGlobals) (value : Int32) : UInt8 :=
  if value < g.logicalMinimum ∨ g.logicalMaximum < value then 0xff
  else (value - g.logicalMinimum).toUInt32.toUInt8

def dpadUp : UInt8 := 1
def dpadDown : UInt8 := 2
def dpadRight : UInt8 := 4
def dpadLeft : UInt8 := 8

def setBits (mask : UInt8) (value : Int32) (dpad : UInt8) : UInt8 :=
  if value ≠ 0 then dpad ||| mask else dpad &&& ~~~mask

/-- `uni_hid_parser_process_dpad`. -/
def processDpad (usage : UInt16) (value : Int32) (dpad : UInt8) : UInt8 :=
  if usage = 0x90 then setBits dpadUp value dpad
  else if usage = 0x91 then setBits dpadDown value dpad
  else if usage = 0x92 then setBits dpadRight value dpad
  else if usage = 0x93 then setBits dpadLeft value dpad
  else dpad

/-- `uni_hid_parser_hat_to_dpad`: the directions clockwise from the top. -/
def hatToDpad (hat : UInt8) : UInt8 :=
  [dpadUp, dpadUp ||| dpadRight, dpadRight, dpadRight ||| dpadDown, dpadDown, dpadDown ||| dpadLeft,
    dpadLeft, dpadLeft ||| dpadUp].getD hat.toNat 0

end EdnaDrone
