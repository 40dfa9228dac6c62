import EdnaDrone.HidDescriptor
import EdnaDrone.Lib.Loop

/-!
# `btstack_hid_parser.c`: the usages of a HID descriptor

The iterator walks over the main items of one report type and gives each field of a main item its
position in the report and a usage. Usages come from a second walk over the descriptor, at `usagePos`,
that goes on where it found the last usage. A failed `btstack_assert` ends the firmware: `none`.
-/

namespace EdnaDrone

open Lib

inductive HidReportType where
  | input
  | output
  | feature
  deriving DecidableEq

/-- `btstack_hid_usage_iterator_state_t`. -/
inductive HidUsageIteratorState where
  | scanForReportItem
  | usagesAvailable
  | parserComplete
  deriving DecidableEq

/-- `HID_REPORT_ID_UNDEFINED`. -/
def hidReportIdUndefined : UInt16 := 0xffff

/-- `btstack_hid_usage_iterator_t`. -/
structure HidUsageIterator where
  descriptor : Bytes
  descriptorIterator : HidDescriptorIterator
  state : HidUsageIteratorState
  descriptorItem : HidDescriptorItem
  reportType : HidReportType
  reportPosInBit : UInt16
  usagePos : ℕ
  usagePage : UInt16
  usageMinimum : UInt32
  usageMaximum : UInt32
  availableUsages : UInt16
  requiredUsages : UInt16
  usageRange : Bool
  globalLogicalMinimum : Int32
  globalLogicalMaximum : Int32
  globalUsagePage : UInt16
  globalReportSize : UInt8
  globalReportCount : UInt8
  globalReportId : UInt16
  deriving DecidableEq

/-- `btstack_hid_usage_item_t`. -/
structure HidUsageItem where
  reportId : UInt16
  bitPos : UInt16
  usagePage : UInt16
  usage : UInt16
  size : UInt8
  descriptorItem : HidDescriptorItem
  globalLogicalMinimum : Int32
  deriving DecidableEq

/-- A variable field, as opposed to an array. -/
def HidDescriptorItem.isVariable (item : HidDescriptorItem) : Bool :=
  item.itemValue.toUInt32 &&& 2 != 0

/-- A constant field, which is padding. -/
def HidDescriptorItem.isConstant (item : HidDescriptorItem) : Bool :=
  item.itemValue.toUInt32 &&& 1 != 0

/-- `btstack_hid_usage_iterator_main_item_tag_matches_report_type`. -/
def mainItemTagMatchesReportType (tag : UInt8) (reportType : HidReportType) : Bool :=
  match mainItemTag tag with
  | some .input => reportType = .input
  | some .output => reportType = .output
  | some .feature => reportType = .feature
  | _ => false

/-- `btstack_hid_usage_iterator_handle_global_item`; the tags without a name fail an assertion. -/
def handleGlobalItem (it : HidUsageIterator) (item : HidDescriptorItem) : Option HidUsageIterator :=
  match globalItemTag item.itemTag with
  | some .usagePage => some { it with globalUsagePage := item.itemValue.toUInt32.toUInt16 }
  | some .logicalMinimum => some { it with globalLogicalMinimum := item.itemValue }
  | some .logicalMaximum => some { it with globalLogicalMaximum := item.itemValue }
  | some .reportSize => some { it with globalReportSize := item.itemValue.toUInt32.toUInt8 }
  | some .reportID => some { it with globalReportId := item.itemValue.toUInt32.toUInt16 }
  | some .reportCount => some { it with globalReportCount := item.itemValue.toUInt32.toUInt8 }
  | some _ => some it
  | none => none

/-! ## The search for the next usage -/

/-- The variables of `btstack_usage_iterator_hid_find_next_usage`. -/
structure UsageSearch where
  main : HidUsageIterator
  iterator : HidDescriptorIterator
  haveUsageMin : Bool
  haveUsageMax : Bool

/-- The usage of a local item; one of up to two bytes is on the current page. -/
def usageValue (usagePage : UInt16) (item : HidDescriptorItem) : UInt32 :=
  if 2 < item.dataSize then item.itemValue.toUInt32
  else usagePage.toUInt32 <<< 16 ||| item.itemValue.toUInt32

def UsageSearch.pageItem (s : UsageSearch) (item : HidDescriptorItem) : UsageSearch :=
  if item.itemType = .global ∧ globalItemTag item.itemTag = some .usagePage then
    { s with main := { s.main with usagePage := item.itemValue.toUInt32.toUInt16 } }
  else s

def UsageSearch.localTag (s : UsageSearch) (item : HidDescriptorItem) : UsageSearch :=
  let usage := usageValue s.main.usagePage item
  match localItemTag item.itemTag with
  | some .usage => { s with main := { s.main with availableUsages := 1, usageMinimum := usage } }
  | some .usageMinimum =>
    { s with main := { s.main with usageMinimum := usage }, haveUsageMin := true }
  | some .usageMaximum =>
    { s with main := { s.main with usageMaximum := usage }, haveUsageMax := true }
  | _ => s

def UsageSearch.localItem (s : UsageSearch) (item : HidDescriptorItem) : UsageSearch :=
  if item.itemType = .local then
    let s := s.localTag item
    if s.haveUsageMin && s.haveUsageMax then
      { s with
        main :=
          { s.main with
            availableUsages := (s.main.usageMaximum - s.main.usageMinimum + 1).toUInt16
            usageRange := true } }
    else s
  else s

def UsageSearch.body [WideShift] (s : UsageSearch) : Round UsageSearch UsageSearch :=
  if s.main.availableUsages = 0 then
    let (iterator, more) := s.iterator.hasMore
    let s := { s with iterator := iterator }
    if more then
      let item := s.iterator.descriptorItem
      let s := { s with iterator := s.iterator.getItem }
      .again ((s.pageItem item).localItem item)
    else .done s
  else .done s

/-- The start of the search: the second walk begins at `usagePos`. -/
def usageSearch (it : HidUsageIterator) : UsageSearch where
  main := { it with usageRange := false }
  iterator := descriptorIteratorInit (it.descriptor.drop it.usagePos)
  haveUsageMin := false
  haveUsageMax := false

/-- `btstack_usage_iterator_hid_find_next_usage`. -/
def hidFindNextUsage [WideShift] (it : HidUsageIterator) : HidUsageIterator :=
  let s := (loop UsageSearch.body (it.descriptor.length + 1) (usageSearch it)).getD (usageSearch it)
  { s.main with usagePos := s.main.usagePos + s.iterator.descriptorPos }

/-! ## The walk over the main items -/

/-- `btstack_parser_usage_iterator_process_item`. -/
def processItem (it : HidUsageIterator) (item : HidDescriptorItem) : Option HidUsageIterator :=
  match item.itemType with
  | .main =>
    if mainItemTagMatchesReportType item.itemTag it.reportType then
      if item.isConstant then
        some
          { it with
            reportPosInBit := it.reportPosInBit +
              it.globalReportSize.toUInt16 * it.globalReportCount.toUInt16 }
      else if it.globalReportCount = 0 then some it
      else some { it with requiredUsages := it.globalReportCount.toUInt16 }
    else some it
  | .global =>
    let reportIdBefore := it.globalReportId
    (handleGlobalItem it item).map fun it =>
      if it.globalReportId ≠ reportIdBefore then { it with reportPosInBit := 0 } else it
  | .local | .reserved => some it

/-- The loop body of `btstack_hid_usage_iterator_find_next_usage` behind `process_item`. -/
def afterItem [WideShift] (it : HidUsageIterator) :
    Round HidUsageIterator (Option HidUsageIterator) :=
  if it.requiredUsages ≠ 0 then
    let it := hidFindNextUsage it
    if it.availableUsages ≠ 0 then .done (some { it with state := .usagesAvailable })
    else .done (some { it with state := .parserComplete })
  else if it.descriptorItem.itemType = .main then
    .again
      { it with usagePos := it.descriptorIterator.descriptorPos, usagePage := it.globalUsagePage }
  else .again it

def findNextUsageBody [WideShift] (it : HidUsageIterator) :
    Round HidUsageIterator (Option HidUsageIterator) :=
  let (iterator, more) := it.descriptorIterator.hasMore
  let it := { it with descriptorIterator := iterator }
  if more then
    let it :=
      { it with
        descriptorItem := it.descriptorIterator.descriptorItem
        descriptorIterator := it.descriptorIterator.getItem }
    match processItem it it.descriptorItem with
    | none => .done none
    | some it => afterItem it
  else .done (some { it with state := .parserComplete })

/-- `btstack_hid_usage_iterator_find_next_usage`. -/
def findNextUsage [WideShift] (it : HidUsageIterator) : Option HidUsageIterator :=
  (loop findNextUsageBody (it.descriptor.length + 1) it).getD none

/-- `btstack_hid_usage_iterator_init`. -/
def usageIteratorInit (descriptor : Bytes) (reportType : HidReportType) : HidUsageIterator where
  descriptor := descriptor
  descriptorIterator := descriptorIteratorInit descriptor
  state := .scanForReportItem
  descriptorItem := zeroItem
  reportType := reportType
  reportPosInBit := 0
  usagePos := 0
  usagePage := 0
  usageMinimum := 0
  usageMaximum := 0
  availableUsages := 0
  requiredUsages := 0
  usageRange := false
  globalLogicalMinimum := 0
  globalLogicalMaximum := 0
  globalUsagePage := 0
  globalReportSize := 0
  globalReportCount := 0
  globalReportId := hidReportIdUndefined

/-- `btstack_hid_usage_iterator_has_more`. The search leaves the state it is called in, so the loop
around it goes round once at most. -/
def HidUsageIterator.hasMore [WideShift] (it : HidUsageIterator) :
    Option (HidUsageIterator × Bool) :=
  let it := if it.state = .scanForReportItem then findNextUsage it else some it
  it.map fun it => (it, decide (it.state = .usagesAvailable))

/-- The item that `btstack_hid_usage_iterator_get_item` returns. -/
def HidUsageIterator.item (it : HidUsageIterator) : HidUsageItem where
  reportId := it.globalReportId
  bitPos := it.reportPosInBit
  usagePage := (it.usageMinimum >>> 16).toUInt16
  usage := if it.descriptorItem.isVariable then (it.usageMinimum &&& 0xffff).toUInt16 else 0
  size := it.globalReportSize
  descriptorItem := it.descriptorItem
  globalLogicalMinimum := it.globalLogicalMinimum

/-- The part of `btstack_hid_usage_iterator_get_item` that moves on to the next usage, for a variable
field. -/
def HidUsageIterator.nextVariable (it : HidUsageIterator) : HidUsageIterator :=
  let it :=
    { it with
      usageMinimum := it.usageMinimum + 1
      availableUsages := it.availableUsages - 1 }
  if it.usageRange ∧ it.usageMaximum < it.usageMinimum then
    -- the range is smaller than the report count
    { it with
      reportPosInBit := it.reportPosInBit + it.globalReportSize.toUInt16 * it.requiredUsages
      requiredUsages := 0 }
  else it

/-- The same for an array. -/
def HidUsageIterator.nextArray (it : HidUsageIterator) : HidUsageIterator :=
  if it.requiredUsages = 0 then { it with availableUsages := 0 } else it

/-- `btstack_hid_usage_iterator_get_item`, without the item. -/
def HidUsageIterator.getItem [WideShift] (it : HidUsageIterator) : HidUsageIterator :=
  let it :=
    { it with
      requiredUsages := it.requiredUsages - 1
      reportPosInBit := it.reportPosInBit + it.globalReportSize.toUInt16 }
  let it := if it.descriptorItem.isVariable then it.nextVariable else it.nextArray
  if it.availableUsages ≠ 0 then it
  else if it.requiredUsages = 0 then { it with state := .scanForReportItem }
  else
    let it := hidFindNextUsage it
    if it.availableUsages = 0 then { it with state := .parserComplete } else it

end EdnaDrone
