import EdnaDrone.Lib.LittleEndian

/-!
# `btstack_hid_parser.c`: the items of a HID descriptor

A descriptor comes from the device and can hold any bytes. Positions in it are natural numbers: an item
is only taken if it ends inside the descriptor, whose length has 16 bits.
-/

namespace EdnaDrone

open Lib

/-- What a shift of an `unsigned int` by its width or more gives. C leaves this undefined; the parser
does it on fields of 32 bits and more, and nothing is assumed about the result. -/
class WideShift where
  shl : UInt32 → UInt32 → UInt32

/-- The machines that take the distance modulo the width. -/
@[reducible] def shiftModulo : WideShift := ⟨fun x n => x <<< n⟩

/-- `x << n`. -/
def shiftLeft [WideShift] (x n : UInt32) : UInt32 :=
  if n < 32 then x <<< n else WideShift.shl x n

inductive TagType where
  | main
  | global
  | local
  | reserved
  deriving DecidableEq

inductive MainItemTag where
  | input
  | output
  | coll
  | feature
  | endColl
  deriving DecidableEq

inductive GlobalItemTag where
  | usagePage
  | logicalMinimum
  | logicalMaximum
  | physicalMinimum
  | physicalMaximum
  | unitExponent
  | unit
  | reportSize
  | reportID
  | reportCount
  | push
  | pop
  deriving DecidableEq

inductive LocalItemTag where
  | usage
  | usageMinimum
  | usageMaximum
  | designatorIndex
  | designatorMinimum
  | designatorMaximum
  | stringIndex
  | stringMinimum
  | stringMaximum
  | delimiter
  deriving DecidableEq

/-- The tag of a main item; their numbers start at 8. -/
def mainItemTag (tag : UInt8) : Option MainItemTag :=
  if tag < 8 then none else [.input, .output, .coll, .feature, .endColl][tag.toNat - 8]?

def globalItemTag (tag : UInt8) : Option GlobalItemTag :=
  [.usagePage, .logicalMinimum, .logicalMaximum, .physicalMinimum, .physicalMaximum, .unitExponent,
    .unit, .reportSize, .reportID, .reportCount, .push, .pop][tag.toNat]?

def localItemTag (tag : UInt8) : Option LocalItemTag :=
  [.usage, .usageMinimum, .usageMaximum, .designatorIndex, .designatorMinimum, .designatorMaximum,
    .stringIndex, .stringMinimum, .stringMaximum, .delimiter][tag.toNat]?

/-- `hid_descriptor_item_t`. -/
structure HidDescriptorItem where
  itemValue : Int32
  itemSize : ℕ
  itemType : TagType
  itemTag : UInt8
  dataSize : ℕ
  deriving DecidableEq

def hidItemSizes (header : UInt8) : ℕ := [0, 1, 2, 4].getD (header &&& 0x03).toNat 0

def itemTypeOf (header : UInt8) : TagType :=
  [TagType.main, .global, .local, .reserved].getD ((header &&& 0x0c) >>> 2).toNat .main

/-- The global items whose values are signed: the logical and physical bounds. -/
def signedItem (itemType : TagType) (itemTag : UInt8) : Bool :=
  itemType = .global && decide (0 < itemTag) && decide (itemTag < 5)

/-- The value of an item from its data bytes. -/
def itemValueOf [WideShift] (sgnd : Bool) (data : Bytes) : Int32 :=
  let value := UInt32.ofNat (ofLE data)
  if sgnd && decide (0 < data.length) && decide (data.getLastD 0 &&& 0x80 ≠ 0) then
    (value - shiftLeft 1 (UInt32.ofNat (data.length * 8))).toInt32
  else value.toInt32

/-- The part of `btstack_hid_descriptor_parse_item` behind the header, which is `pos` bytes long. -/
def itemFrom [WideShift] (descriptor : Bytes) (pos dataSize : ℕ) (itemType : TagType)
    (itemTag : UInt8) : Option HidDescriptorItem :=
  let itemSize := pos + dataSize
  if descriptor.length < itemSize then none
  else if 4 < dataSize then none
  else
    some
      { itemValue := itemValueOf (signedItem itemType itemTag) ((descriptor.drop pos).take dataSize)
        itemSize := itemSize
        itemType := itemType
        itemTag := itemTag
        dataSize := dataSize }

/-- `btstack_hid_descriptor_parse_item`; `none` where it returns false. -/
def parseItem [WideShift] (descriptor : Bytes) : Option HidDescriptorItem :=
  match descriptor with
  | [] => none
  | header :: rest =>
    let dataSize := hidItemSizes header
    let itemType := itemTypeOf header
    let itemTag := (header &&& 0xf0) >>> 4
    if dataSize = 2 ∧ itemTag = 0x0f ∧ itemType = .reserved then
      -- a long item has its size and its tag in the next two bytes
      match rest with
      | size :: tag :: _ => itemFrom descriptor 3 size.toNat itemType tag
      | _ => none
    else itemFrom descriptor 1 dataSize itemType itemTag

/-- `btstack_hid_descriptor_iterator_t`. -/
structure HidDescriptorIterator where
  descriptor : Bytes
  descriptorPos : ℕ
  itemReady : Bool
  valid : Bool
  descriptorItem : HidDescriptorItem
  deriving DecidableEq

/-- An item in zeroed memory. -/
def zeroItem : HidDescriptorItem := ⟨0, 0, .main, 0, 0⟩

/-- `btstack_hid_descriptor_iterator_init`. -/
def descriptorIteratorInit (descriptor : Bytes) : HidDescriptorIterator :=
  ⟨descriptor, 0, false, true, zeroItem⟩

/-- `btstack_hid_descriptor_iterator_has_more`. -/
def HidDescriptorIterator.hasMore [WideShift] (it : HidDescriptorIterator) :
    HidDescriptorIterator × Bool :=
  if it.itemReady = false ∧ it.descriptorPos < it.descriptor.length then
    match parseItem (it.descriptor.drop it.descriptorPos) with
    | some item => ({ it with descriptorItem := item, itemReady := true }, true)
    | none => ({ it with valid := false }, false)
  else (it, it.itemReady)

/-- `btstack_hid_descriptor_iterator_get_item`: the item is the one that was parsed last. -/
def HidDescriptorIterator.getItem (it : HidDescriptorIterator) : HidDescriptorIterator :=
  { it with descriptorPos := it.descriptorPos + it.descriptorItem.itemSize, itemReady := false }

end EdnaDrone
