import EdnaDrone.HidReport
import EdnaDrone.Lib.Generator

/-!
# The walks over a HID descriptor

Every item that is taken lies inside the descriptor and has at least one byte, so the positions of both
walks only grow, up to the length. A usage takes the walk over the main items on, or the search for
usages, or uses up one of the usages at hand; that bounds how many there are.
-/

namespace EdnaDrone

open Lib

/-! ## The descriptor iterator -/

/-- Between two items, and inside the descriptor. -/
structure HidDescriptorIterator.Idle (it : HidDescriptorIterator) : Prop where
  notReady : it.itemReady = false
  inside : it.descriptorPos ≤ it.descriptor.length

/-- What is left of the descriptor. -/
def HidDescriptorIterator.remaining (it : HidDescriptorIterator) : ℕ :=
  it.descriptor.length - it.descriptorPos

theorem idle_descriptorIteratorInit (descriptor : Bytes) : (descriptorIteratorInit descriptor).Idle :=
  ⟨rfl, Nat.zero_le _⟩

/-- The iterator behind the item `item`. -/
def HidDescriptorIterator.behind (it : HidDescriptorIterator) (item : HidDescriptorItem) :
    HidDescriptorIterator :=
  { it with
    descriptorPos := it.descriptorPos + item.itemSize, itemReady := false, descriptorItem := item }

/-! ## What the search for usages writes -/

/-- `t` differs from `s` in what a search for a usage writes. -/
structure SearchFrame (s t : HidUsageIterator) : Prop where
  eq : t = { s with
    usagePos := t.usagePos, usagePage := t.usagePage, usageMinimum := t.usageMinimum
    usageMaximum := t.usageMaximum, availableUsages := t.availableUsages
    usageRange := t.usageRange }

theorem SearchFrame.trans {s t u : HidUsageIterator} (h : SearchFrame s t) (h' : SearchFrame t u) :
    SearchFrame s u := by
  constructor
  rw [h'.eq, h.eq]

/-- What the rounds of a search that starts in `s` keep. -/
structure UsageSearch.Keeps (s : HidUsageIterator) (t : UsageSearch) : Prop where
  frame : SearchFrame s t.main
  usagePos : t.main.usagePos = s.usagePos
  descriptor : t.iterator.descriptor = s.descriptor.drop s.usagePos
  idle : t.iterator.Idle
  found : t.main.availableUsages ≠ 0 → 0 < t.iterator.descriptorPos

theorem keeps_usageSearch {s : HidUsageIterator} (h : s.availableUsages = 0) :
    UsageSearch.Keeps s (usageSearch s) where
  frame := ⟨rfl⟩
  usagePos := rfl
  descriptor := rfl
  idle := idle_descriptorIteratorInit _
  found := fun hne => absurd h hne

/-- The work on an item writes the variables of the search only. -/
theorem item_frame (t : UsageSearch) (item : HidDescriptorItem) :
    SearchFrame t.main ((t.pageItem item).localItem item).main ∧
      ((t.pageItem item).localItem item).main.usagePos = t.main.usagePos ∧
        ((t.pageItem item).localItem item).iterator = t.iterator := by
  have hpage : SearchFrame t.main (t.pageItem item).main ∧
      (t.pageItem item).main.usagePos = t.main.usagePos ∧
        (t.pageItem item).iterator = t.iterator := by
    unfold UsageSearch.pageItem
    split
    · exact ⟨⟨rfl⟩, rfl, rfl⟩
    · exact ⟨⟨rfl⟩, rfl, rfl⟩
  have htag : ∀ t : UsageSearch, SearchFrame t.main (t.localTag item).main ∧
      (t.localTag item).main.usagePos = t.main.usagePos ∧
        (t.localTag item).iterator = t.iterator := by
    intro t
    unfold UsageSearch.localTag
    dsimp only
    split <;> exact ⟨⟨rfl⟩, rfl, rfl⟩
  have hlocal : ∀ t : UsageSearch, SearchFrame t.main (t.localItem item).main ∧
      (t.localItem item).main.usagePos = t.main.usagePos ∧
        (t.localItem item).iterator = t.iterator := by
    intro t
    unfold UsageSearch.localItem
    dsimp only
    split
    · split
      · obtain ⟨h1, h2, h3⟩ := htag t
        exact ⟨h1.trans ⟨rfl⟩, h2, h3⟩
      · exact htag t
    · exact ⟨⟨rfl⟩, rfl, rfl⟩
  obtain ⟨h1, h2, h3⟩ := hlocal (t.pageItem item)
  exact ⟨hpage.1.trans h1, h2.trans hpage.2.1, h3.trans hpage.2.2⟩

/-! ## What the work on an item writes -/

/-- A global item with a tag that has no name. -/
def HidDescriptorItem.FailsAssert (item : HidDescriptorItem) : Prop :=
  item.itemType = .global ∧ globalItemTag item.itemTag = none

/-- `t` differs from `s` in what the work on an item writes. -/
structure ItemFrame (s t : HidUsageIterator) : Prop where
  eq : t = { s with
    reportPosInBit := t.reportPosInBit, requiredUsages := t.requiredUsages
    globalLogicalMinimum := t.globalLogicalMinimum, globalLogicalMaximum := t.globalLogicalMaximum
    globalUsagePage := t.globalUsagePage, globalReportSize := t.globalReportSize
    globalReportCount := t.globalReportCount, globalReportId := t.globalReportId }

theorem handleGlobalItem_cases (s : HidUsageIterator) (item : HidDescriptorItem) :
    (globalItemTag item.itemTag = none ∧ handleGlobalItem s item = none) ∨
      ∃ t, handleGlobalItem s item = some t ∧ ItemFrame s t ∧
        t.requiredUsages = s.requiredUsages := by
  unfold handleGlobalItem
  cases htag : globalItemTag item.itemTag with
  | none => exact Or.inl ⟨rfl, rfl⟩
  | some tag => cases tag <;> exact Or.inr ⟨_, rfl, ⟨rfl⟩, rfl⟩

/-- The work on an item fails an assertion or writes some counters and globals; only a main item makes
usages required. -/
theorem processItem_cases (s : HidUsageIterator) (item : HidDescriptorItem) :
    (item.FailsAssert ∧ processItem s item = none) ∨
      ∃ t, processItem s item = some t ∧ ItemFrame s t ∧
        (item.itemType ≠ .main → t.requiredUsages = s.requiredUsages) := by
  unfold processItem
  cases htype : item.itemType with
  | main =>
    right
    dsimp only
    split
    · split
      · exact ⟨_, rfl, ⟨rfl⟩, fun h => absurd rfl h⟩
      · split
        · exact ⟨_, rfl, ⟨rfl⟩, fun h => absurd rfl h⟩
        · exact ⟨_, rfl, ⟨rfl⟩, fun h => absurd rfl h⟩
    · exact ⟨_, rfl, ⟨rfl⟩, fun h => absurd rfl h⟩
  | global =>
    rcases handleGlobalItem_cases s item with ⟨htag, hnone⟩ | ⟨t, ht, hframe, hreq⟩
    · left
      rw [hnone]
      exact ⟨⟨htype, htag⟩, rfl⟩
    · right
      rw [ht]
      by_cases hid : t.globalReportId ≠ s.globalReportId
      · refine ⟨{ t with reportPosInBit := 0 }, congrArg some (if_pos hid), ⟨?_⟩, fun _ => hreq⟩
        rw [hframe.eq]
      · exact ⟨t, congrArg some (if_neg hid), hframe, fun _ => hreq⟩
  | «local» => exact Or.inr ⟨s, rfl, ⟨rfl⟩, fun _ => rfl⟩
  | reserved => exact Or.inr ⟨s, rfl, ⟨rfl⟩, fun _ => rfl⟩

/-- The iterator when it has taken an item. -/
def HidUsageIterator.take (it : HidUsageIterator) (item : HidDescriptorItem) : HidUsageIterator :=
  { it with descriptorItem := item, descriptorIterator := it.descriptorIterator.behind item }

variable {s it it' : HidUsageIterator}

/-- What the work on an item leaves alone. -/
theorem processItem_frame {t : HidUsageIterator} {item : HidDescriptorItem}
    (h : processItem s item = some t) : ItemFrame s t := by
  rcases processItem_cases s item with ⟨-, hnone⟩ | ⟨u, hu, hframe, -⟩
  · rw [hnone] at h
    cases h
  · rw [hu] at h
    cases h
    exact hframe

/-! ## What using up a usage writes -/

/-- `btstack_hid_usage_iterator_get_item` before it looks for the next usage. -/
def HidUsageIterator.consume (it : HidUsageIterator) : HidUsageIterator :=
  let it :=
    { it with
      requiredUsages := it.requiredUsages - 1
      reportPosInBit := it.reportPosInBit + it.globalReportSize.toUInt16 }
  if it.descriptorItem.isVariable then it.nextVariable else it.nextArray

/-- The usages at hand, or the fields of an array that are left. -/
def HidUsageIterator.atHand (it : HidUsageIterator) : ℕ :=
  if it.descriptorItem.isVariable then it.availableUsages.toNat else it.requiredUsages.toNat

theorem uint16_pos {x : UInt16} (h : x ≠ 0) : 0 < x.toNat := by
  rw [Nat.pos_iff_ne_zero]
  intro h0
  exact h (UInt16.toNat_inj.1 h0)

theorem toNat_sub_one {x : UInt16} (h : x ≠ 0) : (x - 1).toNat + 1 = x.toNat := by
  have hpos := uint16_pos h
  have hlt := x.toNat_lt
  rw [UInt16.toNat_sub]
  have h1 : (1 : UInt16).toNat = 1 := rfl
  omega

/-- Using up a usage changes the counters of the field only. -/
theorem consume_frame (it : HidUsageIterator) :
    it.consume = { it with
      usageMinimum := it.consume.usageMinimum, availableUsages := it.consume.availableUsages
      reportPosInBit := it.consume.reportPosInBit
      requiredUsages := it.consume.requiredUsages } := by
  unfold HidUsageIterator.consume HidUsageIterator.nextVariable HidUsageIterator.nextArray
  dsimp only
  split
  · split <;> rfl
  · split <;> rfl

theorem atHand_lt (it : HidUsageIterator) : it.atHand < 65536 := by
  unfold HidUsageIterator.atHand
  split
  · exact it.availableUsages.toNat_lt
  · exact it.requiredUsages.toNat_lt

/-- How far the iterator is from the end of its work. Taking a main item outweighs the bytes that are
left for usages, and finding a usage outweighs the usages at hand. -/
def HidUsageIterator.work (it : HidUsageIterator) : ℕ :=
  match it.state with
  | .parserComplete => 0
  | .scanForReportItem =>
    it.descriptorIterator.remaining * ((it.descriptor.length + 1) * 65536)
  | .usagesAvailable =>
    it.descriptorIterator.remaining * ((it.descriptor.length + 1) * 65536) +
      (it.descriptor.length - it.usagePos) * 65536 + it.atHand

theorem work_available (hstate : it.state = .usagesAvailable) :
    it.work = it.descriptorIterator.remaining * ((it.descriptor.length + 1) * 65536) +
      (it.descriptor.length - it.usagePos) * 65536 + it.atHand := by
  unfold HidUsageIterator.work
  rw [hstate]

theorem work_scan (hstate : it.state = .scanForReportItem) :
    it.work = it.descriptorIterator.remaining * ((it.descriptor.length + 1) * 65536) := by
  unfold HidUsageIterator.work
  rw [hstate]

theorem work_complete (hstate : it.state = .parserComplete) : it.work = 0 := by
  unfold HidUsageIterator.work
  rw [hstate]

theorem work_le {r r' b n c : ℕ} (hr : r + 1 ≤ r') (hb : b ≤ n) (hc : c < 65536) :
    r * ((n + 1) * 65536) + b * 65536 + c ≤ r' * ((n + 1) * 65536) :=
  calc
    r * ((n + 1) * 65536) + b * 65536 + c ≤ r * ((n + 1) * 65536) + (n + 1) * 65536 := by omega
    _ = (r + 1) * ((n + 1) * 65536) := (Nat.succ_mul _ _).symm
    _ ≤ r' * ((n + 1) * 65536) := Nat.mul_le_mul_right _ hr

theorem work_usageIteratorInit (descriptor : Bytes) (reportType : HidReportType) :
    (usageIteratorInit descriptor reportType).work + 2 ≤ parseRounds descriptor := by
  have heq : (usageIteratorInit descriptor reportType).work =
      descriptor.length * ((descriptor.length + 1) * 65536) := work_scan rfl
  rw [heq, parseRounds, Nat.mul_assoc (descriptor.length + 1)]
  exact Nat.add_le_add_right (Nat.mul_le_mul_right _ (Nat.le_succ descriptor.length)) 2

variable [WideShift]

/-! ## Items -/

theorem itemFrom_size {descriptor : Bytes} {pos dataSize : ℕ} {itemType : TagType} {itemTag : UInt8}
    {item : HidDescriptorItem} (h : itemFrom descriptor pos dataSize itemType itemTag = some item) :
    item.itemSize = pos + dataSize ∧ pos + dataSize ≤ descriptor.length := by
  unfold itemFrom at h
  dsimp only at h
  split at h
  · cases h
  · split at h
    · cases h
    · cases h
      exact ⟨rfl, by omega⟩

theorem parseItem_size {descriptor : Bytes} {item : HidDescriptorItem}
    (h : parseItem descriptor = some item) :
    0 < item.itemSize ∧ item.itemSize ≤ descriptor.length := by
  cases descriptor with
  | nil => cases h
  | cons header rest =>
    have hfrom : ∃ pos dataSize itemType itemTag, 0 < pos ∧
        itemFrom (header :: rest) pos dataSize itemType itemTag = some item := by
      unfold parseItem at h
      dsimp only at h
      split at h
      · split at h
        · exact ⟨_, _, _, _, by omega, h⟩
        · cases h
      · exact ⟨_, _, _, _, by omega, h⟩
    obtain ⟨pos, dataSize, itemType, itemTag, hpos, hitem⟩ := hfrom
    obtain ⟨hsize, hle⟩ := itemFrom_size hitem
    omega

/-! ## The items up to a position -/

/-- The items of a descriptor up to a position. -/
inductive ItemsTo (descriptor : Bytes) : ℕ → List HidDescriptorItem → Prop where
  | nil : ItemsTo descriptor 0 []
  | snoc {pos : ℕ} {items : List HidDescriptorItem} {item : HidDescriptorItem}
    (h : ItemsTo descriptor pos items) (hitem : parseItem (descriptor.drop pos) = some item) :
    ItemsTo descriptor (pos + item.itemSize) (items ++ [item])

/-- Some items end at the position, and none of them has a reserved tag. -/
def Passed (descriptor : Bytes) (pos : ℕ) : Prop :=
  ∃ items, ItemsTo descriptor pos items ∧ ∀ item ∈ items, ¬ item.FailsAssert

theorem Passed.snoc {descriptor : Bytes} {pos : ℕ} {item : HidDescriptorItem}
    (h : Passed descriptor pos) (hitem : parseItem (descriptor.drop pos) = some item)
    (hok : ¬ item.FailsAssert) : Passed descriptor (pos + item.itemSize) := by
  obtain ⟨items, hto, hall⟩ := h
  refine ⟨items ++ [item], hto.snoc hitem, fun i hi => ?_⟩
  rcases List.mem_append.1 hi with hi | hi
  · exact hall i hi
  · rw [List.mem_singleton.1 hi]
    exact hok

/-- The walk over the items of the descriptor comes to one with a reserved tag. -/
def MeetsReserved (descriptor : Bytes) : Prop :=
  ∃ pos item, Passed descriptor pos ∧ parseItem (descriptor.drop pos) = some item ∧ item.FailsAssert

/-! ## The next item -/

/-- Either there is an item, and taking it leads behind it, or only `valid` changes. -/
theorem HidDescriptorIterator.Idle.hasMore_cases {it : HidDescriptorIterator} (h : it.Idle) :
    (∃ item, parseItem (it.descriptor.drop it.descriptorPos) = some item ∧
      it.hasMore.2 = true ∧ it.hasMore.1.descriptorItem = item ∧
        it.hasMore.1.getItem = it.behind item) ∨
    (it.hasMore.2 = false ∧ ∃ valid, it.hasMore.1 = { it with valid := valid }) := by
  unfold HidDescriptorIterator.hasMore
  split
  · cases hitem : parseItem (it.descriptor.drop it.descriptorPos) with
    | some item => exact Or.inl ⟨item, rfl, rfl, rfl, rfl⟩
    | none => exact Or.inr ⟨rfl, _, rfl⟩
  · exact Or.inr ⟨h.notReady, _, rfl⟩

theorem HidDescriptorIterator.Idle.behind {it : HidDescriptorIterator} (h : it.Idle)
    {item : HidDescriptorItem}
    (hitem : parseItem (it.descriptor.drop it.descriptorPos) = some item) :
    (it.behind item).Idle ∧ it.descriptorPos < (it.behind item).descriptorPos := by
  obtain ⟨hpos, hle⟩ := parseItem_size hitem
  rw [List.length_drop] at hle
  have hinside := h.inside
  refine ⟨⟨rfl, ?_⟩, ?_⟩
  · show it.descriptorPos + item.itemSize ≤ it.descriptor.length
    omega
  · show it.descriptorPos < it.descriptorPos + item.itemSize
    omega

/-! ## The search for usages -/

/-- A round either ends the search or takes an item. -/
theorem UsageSearch.Keeps.round {s : HidUsageIterator} {t : UsageSearch} (h : t.Keeps s) :
    (∃ t', t.body = .done t' ∧ t'.Keeps s) ∨
      ∃ t', t.body = .again t' ∧ t'.Keeps s ∧
        t'.iterator.remaining < t.iterator.remaining := by
  unfold UsageSearch.body
  by_cases havail : t.main.availableUsages = 0
  · rw [if_pos havail]
    rcases h.idle.hasMore_cases with ⟨item, hitem, hmore, hcurrent, hget⟩ | ⟨hmore, valid, heq⟩
    · obtain ⟨hidle, hlt⟩ := h.idle.behind hitem
      right
      simp only [hmore, if_true, hcurrent, hget]
      obtain ⟨hframe, hpos, hiter⟩ := item_frame { t with iterator := t.iterator.behind item } item
      refine ⟨_, rfl, ⟨h.frame.trans hframe, hpos.trans h.usagePos, ?_, ?_, ?_⟩, ?_⟩
      · rw [hiter]
        exact h.descriptor
      · rw [hiter]
        exact hidle
      · rw [hiter]
        intro _
        exact Nat.zero_lt_of_lt hlt
      · rw [hiter]
        have hinside : t.iterator.descriptorPos + item.itemSize ≤ t.iterator.descriptor.length :=
          hidle.inside
        have hlt' : t.iterator.descriptorPos < t.iterator.descriptorPos + item.itemSize := hlt
        show t.iterator.descriptor.length - (t.iterator.descriptorPos + item.itemSize) <
          t.iterator.descriptor.length - t.iterator.descriptorPos
        omega
    · left
      simp only [hmore, heq, Bool.false_eq_true, if_false]
      exact ⟨_, rfl, h.frame, h.usagePos, h.descriptor, ⟨h.idle.notReady, h.idle.inside⟩, h.found⟩
  · rw [if_neg havail]
    exact Or.inl ⟨t, rfl, h⟩

/-- What a search comes to: it changes the usage at hand, and it moves on if it finds one. -/
theorem hidFindNextUsage_spec {s : HidUsageIterator} (h : s.availableUsages = 0)
    (hpos : s.usagePos ≤ s.descriptor.length) :
    SearchFrame s (hidFindNextUsage s) ∧ s.usagePos ≤ (hidFindNextUsage s).usagePos ∧
      (hidFindNextUsage s).usagePos ≤ s.descriptor.length ∧
        ((hidFindNextUsage s).availableUsages ≠ 0 → s.usagePos < (hidFindNextUsage s).usagePos) := by
  have hround : ∀ t t' : UsageSearch, t.Keeps s → t.body = .again t' →
      t'.Keeps s ∧ t'.iterator.remaining < t.iterator.remaining := by
    intro t t' ht hbody
    rcases ht.round with ⟨u, hu, -⟩ | ⟨u, hu, hkeeps, hlt⟩
    · rw [hbody] at hu
      cases hu
    · rw [hbody] at hu
      cases hu
      exact ⟨hkeeps, hlt⟩
  have hdone : ∀ t t' : UsageSearch, t.Keeps s → t.body = .done t' → t'.Keeps s := by
    intro t t' ht hbody
    rcases ht.round with ⟨u, hu, hkeeps⟩ | ⟨u, hu, -⟩
    · rw [hbody] at hu
      cases hu
      exact hkeeps
    · rw [hbody] at hu
      cases hu
  have hfuel : (usageSearch s).iterator.remaining < s.descriptor.length + 1 := by
    show (s.descriptor.drop s.usagePos).length - 0 < s.descriptor.length + 1
    rw [List.length_drop]
    omega
  obtain ⟨t, ht⟩ := exists_loop_eq_some _ _ hround (keeps_usageSearch h) hfuel
  have hkeeps : t.Keeps s := loop_post _ _ ht (keeps_usageSearch h)
    (fun u u' hu hb => (hround u u' hu hb).1) hdone
  have heq : hidFindNextUsage s =
      { t.main with usagePos := t.main.usagePos + t.iterator.descriptorPos } := by
    unfold hidFindNextUsage
    rw [ht]
    rfl
  have hinside := hkeeps.idle.inside
  rw [hkeeps.descriptor, List.length_drop] at hinside
  rw [heq, hkeeps.usagePos]
  refine ⟨hkeeps.frame.trans ⟨rfl⟩, ?_, ?_, ?_⟩
  · show s.usagePos ≤ s.usagePos + t.iterator.descriptorPos
    omega
  · show s.usagePos + t.iterator.descriptorPos ≤ s.descriptor.length
    omega
  · intro hne
    have hfound := hkeeps.found hne
    show s.usagePos < s.usagePos + t.iterator.descriptorPos
    omega

/-! ## The walk over the main items -/

/-- What holds of the iterator whenever it is not at work. -/
structure HidUsageIterator.WellFormed (it : HidUsageIterator) : Prop where
  descriptor : it.descriptorIterator.descriptor = it.descriptor
  idle : it.descriptorIterator.Idle
  passed : Passed it.descriptor it.descriptorIterator.descriptorPos
  usagePos : it.usagePos ≤ it.descriptor.length
  /-- Nothing is left over when the next main item is looked for. -/
  scan : it.state = .scanForReportItem → it.availableUsages = 0 ∧ it.requiredUsages = 0
  available : it.state = .usagesAvailable → it.availableUsages ≠ 0
  /-- An array goes through all its fields before it gives up its usages. -/
  array : it.state = .usagesAvailable → it.descriptorItem.isVariable = false → it.requiredUsages ≠ 0

theorem wellFormed_usageIteratorInit (descriptor : Bytes) (reportType : HidReportType) :
    (usageIteratorInit descriptor reportType).WellFormed where
  descriptor := rfl
  idle := idle_descriptorIteratorInit descriptor
  passed := ⟨[], .nil, fun _ hi => nomatch hi⟩
  usagePos := Nat.zero_le _
  scan := fun _ => ⟨rfl, rfl⟩
  available := fun h => nomatch h
  array := fun h => nomatch h

/-- How a round of the walk ends: with no item left, in a failed assertion, at a main item that requires
usages, or behind any other item. -/
inductive FindRound (it : HidUsageIterator) :
    Round HidUsageIterator (Option HidUsageIterator) → Prop where
  | noItem (valid : Bool) :
    FindRound it (.done (some
      { it with
        descriptorIterator := { it.descriptorIterator with valid := valid }
        state := .parserComplete }))
  | failed (item : HidDescriptorItem)
    (hitem : parseItem (it.descriptorIterator.descriptor.drop it.descriptorIterator.descriptorPos) =
      some item) (h : item.FailsAssert) : FindRound it (.done none)
  | field (item : HidDescriptorItem) (t : HidUsageIterator)
    (hitem : parseItem (it.descriptorIterator.descriptor.drop it.descriptorIterator.descriptorPos) =
      some item) (ht : processItem (it.take item) item = some t) (hreq : t.requiredUsages ≠ 0)
    (state : HidUsageIteratorState)
    (hstate : ((hidFindNextUsage t).availableUsages ≠ 0 ∧ state = .usagesAvailable) ∨
      state = .parserComplete) :
    FindRound it (.done (some { hidFindNextUsage t with state := state }))
  | skip (item : HidDescriptorItem) (t : HidUsageIterator)
    (hitem : parseItem (it.descriptorIterator.descriptor.drop it.descriptorIterator.descriptorPos) =
      some item) (ht : processItem (it.take item) item = some t) (hreq : t.requiredUsages = 0)
    (usagePos : ℕ) (usagePage : UInt16)
    (husage : usagePos = t.usagePos ∨ usagePos = t.descriptorIterator.descriptorPos) :
    FindRound it (.again { t with usagePos := usagePos, usagePage := usagePage })

theorem findRound (it : HidUsageIterator) (h : it.descriptorIterator.Idle) :
    FindRound it (findNextUsageBody it) := by
  unfold findNextUsageBody
  rcases h.hasMore_cases with ⟨item, hitem, hmore, hcurrent, hget⟩ | ⟨hmore, valid, heq⟩
  · simp only [hmore, if_true, hcurrent, hget]
    have htake : ∀ t, processItem (it.take item) item = t → processItem
        { it with descriptorIterator := it.descriptorIterator.behind item, descriptorItem := item }
        item = t := fun _ h => h
    rcases processItem_cases (it.take item) item with ⟨hfail, hnone⟩ | ⟨t, ht, hframe, -⟩
    · rw [htake _ hnone]
      exact .failed item hitem hfail
    · rw [htake _ ht]
      dsimp only
      unfold afterItem
      by_cases hreq : t.requiredUsages = 0
      · rw [if_neg (not_not.2 hreq)]
        split
        · exact .skip item t hitem ht hreq _ _ (Or.inr rfl)
        · exact .skip item t hitem ht hreq t.usagePos t.usagePage (Or.inl rfl)
      · rw [if_pos hreq]
        dsimp only
        split
        · rename_i havail
          exact .field item t hitem ht hreq _ (Or.inl ⟨havail, rfl⟩)
        · exact .field item t hitem ht hreq _ (Or.inr rfl)
  · simp only [hmore, heq, Bool.false_eq_true, if_false]
    exact .noItem valid

/-- The iterator in the middle of a walk from `s` on. -/
structure Walking (s it : HidUsageIterator) : Prop where
  wellFormed : it.WellFormed
  state : it.state = .scanForReportItem
  descriptor : it.descriptor = s.descriptor
  forward : s.descriptorIterator.descriptorPos ≤ it.descriptorIterator.descriptorPos

/-- Taking an item keeps everything but the item, and moves on. -/
theorem take_spec (h : it.WellFormed) {item : HidDescriptorItem}
    (hitem : parseItem (it.descriptorIterator.descriptor.drop it.descriptorIterator.descriptorPos) =
      some item) :
    (it.take item).descriptorIterator.descriptor = it.descriptor ∧
      (it.take item).descriptorIterator.Idle ∧
        it.descriptorIterator.descriptorPos <
          (it.take item).descriptorIterator.descriptorPos :=
  ⟨h.descriptor, (h.idle.behind hitem).1, (h.idle.behind hitem).2⟩

/-- The items up to the one that was taken. -/
theorem passed_take (h : it.WellFormed) {t : HidUsageIterator} {item : HidDescriptorItem}
    (hitem : parseItem (it.descriptorIterator.descriptor.drop it.descriptorIterator.descriptorPos) =
      some item) (ht : processItem (it.take item) item = some t) :
    Passed it.descriptor t.descriptorIterator.descriptorPos := by
  have hok : ¬ item.FailsAssert := by
    rintro ⟨htype, htag⟩
    have hnone : processItem (it.take item) item = none := by
      unfold processItem handleGlobalItem
      rw [htype, htag]
      rfl
    rw [hnone] at ht
    cases ht
  rw [h.descriptor] at hitem
  rw [(processItem_frame ht).eq]
  exact h.passed.snoc hitem hok

/-- A round of the walk that asks for another one. -/
theorem Walking.again (h : Walking s it) (hbody : findNextUsageBody it = .again it') :
    Walking s it' ∧ it'.descriptorIterator.remaining < it.descriptorIterator.remaining := by
  have hround := findRound it h.wellFormed.idle
  rw [hbody] at hround
  cases hround with
  | skip item t hitem ht hreq usagePos usagePage husage =>
    have hframe := (processItem_frame ht).eq
    obtain ⟨hd, hidle, hlt⟩ := take_spec h.wellFormed hitem
    have hiter : t.descriptorIterator = (it.take item).descriptorIterator := by rw [hframe]
    have hdesc : t.descriptor = it.descriptor := by rw [hframe]; rfl
    have hstate : t.state = it.state := by rw [hframe]; rfl
    have havail : t.availableUsages = it.availableUsages := by rw [hframe]; rfl
    have husagePos : t.usagePos = it.usagePos := by rw [hframe]; rfl
    have hscan := h.wellFormed.scan h.state
    have hinside := hidle.inside
    rw [hd] at hinside
    refine ⟨⟨⟨?_, ?_, ?_, ?_, ?_, ?_, ?_⟩, hstate.trans h.state, hdesc.trans h.descriptor, ?_⟩, ?_⟩
    · show t.descriptorIterator.descriptor = t.descriptor
      rw [hiter, hdesc, hd]
    · show t.descriptorIterator.Idle
      rw [hiter]
      exact hidle
    · show Passed t.descriptor t.descriptorIterator.descriptorPos
      rw [hdesc]
      exact passed_take h.wellFormed hitem ht
    · show usagePos ≤ t.descriptor.length
      rw [hdesc]
      rcases husage with rfl | rfl
      · rw [husagePos]
        exact h.wellFormed.usagePos
      · rw [hiter]
        exact hinside
    · exact fun _ => ⟨havail.trans hscan.1, hreq⟩
    · intro hne
      exact absurd ((hstate.trans h.state).symm.trans hne) (by decide)
    · intro hne
      exact absurd ((hstate.trans h.state).symm.trans hne) (by decide)
    · show s.descriptorIterator.descriptorPos ≤ t.descriptorIterator.descriptorPos
      rw [hiter]
      exact h.forward.trans hlt.le
    · show t.descriptorIterator.remaining < _
      rw [hiter]
      unfold HidDescriptorIterator.remaining
      rw [hd, h.wellFormed.descriptor]
      omega

/-- Where a walk ends: in the middle of a main item, with usages at hand, or at the end of the work. -/
structure WalkEnds (s it : HidUsageIterator) : Prop where
  wellFormed : it.WellFormed
  descriptor : it.descriptor = s.descriptor
  ends : it.state = .parserComplete ∨ it.state = .usagesAvailable ∧
    s.descriptorIterator.descriptorPos < it.descriptorIterator.descriptorPos

theorem Walking.done (h : Walking s it) (hbody : findNextUsageBody it = .done (some it')) :
    WalkEnds s it' := by
  have hround := findRound it h.wellFormed.idle
  rw [hbody] at hround
  cases hround with
  | noItem valid =>
    refine ⟨⟨h.wellFormed.descriptor, ⟨h.wellFormed.idle.notReady, h.wellFormed.idle.inside⟩,
      h.wellFormed.passed, h.wellFormed.usagePos, ?_, ?_, ?_⟩, h.descriptor, Or.inl rfl⟩
    · exact fun hne => nomatch hne
    · exact fun hne => nomatch hne
    · exact fun hne => nomatch hne
  | field item t hitem ht hreq state hstate =>
    have hframe := (processItem_frame ht).eq
    obtain ⟨hd, hidle, hlt⟩ := take_spec h.wellFormed hitem
    have hiter : t.descriptorIterator = (it.take item).descriptorIterator := by rw [hframe]
    have hdesc : t.descriptor = it.descriptor := by rw [hframe]; rfl
    have havail : t.availableUsages = 0 := by
      rw [hframe]
      exact (h.wellFormed.scan h.state).1
    have husagePos : t.usagePos ≤ t.descriptor.length := by
      rw [hframe]
      exact h.wellFormed.usagePos
    obtain ⟨hsearch, -, hinside, -⟩ := hidFindNextUsage_spec havail husagePos
    have hiter' : (hidFindNextUsage t).descriptorIterator = t.descriptorIterator := by
      rw [hsearch.eq]
    have hdesc' : (hidFindNextUsage t).descriptor = t.descriptor := by rw [hsearch.eq]
    have hreq' : (hidFindNextUsage t).requiredUsages = t.requiredUsages := by rw [hsearch.eq]
    refine ⟨⟨?_, ?_, ?_, ?_, ?_, ?_, ?_⟩, hdesc'.trans (hdesc.trans h.descriptor), ?_⟩
    · show (hidFindNextUsage t).descriptorIterator.descriptor = (hidFindNextUsage t).descriptor
      rw [hiter', hdesc', hiter, hdesc, hd]
    · show (hidFindNextUsage t).descriptorIterator.Idle
      rw [hiter', hiter]
      exact hidle
    · show Passed (hidFindNextUsage t).descriptor (hidFindNextUsage t).descriptorIterator.descriptorPos
      rw [hiter', hdesc', hdesc]
      exact passed_take h.wellFormed hitem ht
    · show (hidFindNextUsage t).usagePos ≤ (hidFindNextUsage t).descriptor.length
      rw [hdesc']
      exact hinside
    · intro hscan
      rcases hstate with ⟨-, rfl⟩ | rfl
      · cases hscan
      · cases hscan
    · intro hav
      rcases hstate with ⟨hne, -⟩ | rfl
      · exact hne
      · cases hav
    · intro _ _
      show (hidFindNextUsage t).requiredUsages ≠ 0
      rw [hreq']
      exact hreq
    · rcases hstate with ⟨-, rfl⟩ | rfl
      · refine Or.inr ⟨rfl, ?_⟩
        show s.descriptorIterator.descriptorPos <
          (hidFindNextUsage t).descriptorIterator.descriptorPos
        rw [hiter', hiter]
        exact h.forward.trans_lt hlt
      · exact Or.inl rfl

/-- A walk fails at an item with a reserved tag. -/
theorem Walking.failed (h : Walking s it) (hbody : findNextUsageBody it = .done none) :
    MeetsReserved s.descriptor := by
  have hround := findRound it h.wellFormed.idle
  rw [hbody] at hround
  cases hround with
  | failed item hitem hfail =>
    rw [h.wellFormed.descriptor] at hitem
    rw [← h.descriptor]
    exact ⟨_, item, h.wellFormed.passed, hitem, hfail⟩

/-- A walk has the rounds it needs. -/
theorem exists_loop_findNextUsageBody (h : s.WellFormed) (hstate : s.state = .scanForReportItem) :
    ∃ r, loop findNextUsageBody (s.descriptor.length + 1) s = some r := by
  have hfuel : s.descriptorIterator.remaining < s.descriptor.length + 1 := by
    unfold HidDescriptorIterator.remaining
    rw [h.descriptor]
    omega
  exact exists_loop_eq_some (Walking s) (fun it => it.descriptorIterator.remaining)
    (fun _ _ hit hb => hit.again hb) ⟨h, hstate, rfl, le_rfl⟩ hfuel

/-- A walk comes to its end or fails an assertion. -/
theorem findNextUsage_spec (h : s.WellFormed) (hstate : s.state = .scanForReportItem) :
    (∃ t, findNextUsage s = some t ∧ WalkEnds s t) ∨
      findNextUsage s = none ∧ MeetsReserved s.descriptor := by
  have hs : Walking s s := ⟨h, hstate, rfl, le_rfl⟩
  obtain ⟨r, hr⟩ := exists_loop_findNextUsageBody h hstate
  have heq : findNextUsage s = r := by
    unfold findNextUsage
    rw [hr]
    rfl
  rw [heq]
  exact loop_post (Walking s)
    (fun r => (∃ t, r = some t ∧ WalkEnds s t) ∨ r = none ∧ MeetsReserved s.descriptor)
    hr hs (fun _ _ hit hb => (hit.again hb).1) fun it r hit hb => by
      cases r with
      | none => exact Or.inr ⟨rfl, hit.failed hb⟩
      | some t => exact Or.inl ⟨t, rfl, hit.done hb⟩

/-! ## One usage -/

/-- There is one usage less at hand, or one field of an array less is left; an array gives up its usages
with its last field. -/
theorem consume_spec (h : it.WellFormed) (hstate : it.state = .usagesAvailable) :
    (it.consume.availableUsages ≠ 0 → it.consume.atHand < it.atHand) ∧
    (it.descriptorItem.isVariable = false →
      (it.consume.availableUsages = 0 ↔ it.consume.requiredUsages = 0)) := by
  unfold HidUsageIterator.consume
  by_cases hvar : it.descriptorItem.isVariable = true
  · dsimp only
    rw [if_pos hvar]
    unfold HidUsageIterator.nextVariable
    have hsub := toNat_sub_one (h.available hstate)
    have hcontra : ∀ {q : Prop}, it.descriptorItem.isVariable = false → q := by
      intro q hv
      rw [hvar] at hv
      cases hv
    dsimp only
    split
    · refine ⟨fun _ => ?_, hcontra⟩
      unfold HidUsageIterator.atHand
      rw [if_pos hvar, if_pos hvar]
      exact Nat.lt_of_succ_le hsub.le
    · refine ⟨fun _ => ?_, hcontra⟩
      unfold HidUsageIterator.atHand
      rw [if_pos hvar, if_pos hvar]
      exact Nat.lt_of_succ_le hsub.le
  · have hfalse : it.descriptorItem.isVariable = false := Bool.eq_false_iff.2 hvar
    dsimp only
    rw [if_neg hvar]
    unfold HidUsageIterator.nextArray
    have hsub := toNat_sub_one (h.array hstate hfalse)
    dsimp only
    split
    · rename_i hzero
      exact ⟨fun hne => absurd rfl hne, fun _ => ⟨fun _ => hzero, fun _ => rfl⟩⟩
    · rename_i hne
      refine ⟨fun _ => ?_, fun _ => ⟨fun h0 => absurd h0 (h.available hstate),
        fun h0 => absurd h0 hne⟩⟩
      unfold HidUsageIterator.atHand
      rw [if_neg hvar, if_neg hvar]
      exact Nat.lt_of_succ_le hsub.le

theorem atHand_pos (h : it.WellFormed) (hstate : it.state = .usagesAvailable) : 0 < it.atHand := by
  unfold HidUsageIterator.atHand
  by_cases hvar : it.descriptorItem.isVariable = true
  · rw [if_pos hvar]
    exact uint16_pos (h.available hstate)
  · rw [if_neg hvar]
    exact uint16_pos (h.array hstate (Bool.eq_false_iff.2 hvar))

/-- How a usage is taken: another one is at hand, or the field is done, or a search for more follows. -/
theorem getItem_cases (it : HidUsageIterator) :
    (it.consume.availableUsages ≠ 0 ∧ it.getItem = it.consume) ∨
    (it.consume.availableUsages = 0 ∧ it.consume.requiredUsages = 0 ∧
      it.getItem = { it.consume with state := .scanForReportItem }) ∨
    (it.consume.availableUsages = 0 ∧ it.consume.requiredUsages ≠ 0 ∧
      (hidFindNextUsage it.consume).availableUsages = 0 ∧
      it.getItem = { hidFindNextUsage it.consume with state := .parserComplete }) ∨
    (it.consume.availableUsages = 0 ∧ it.consume.requiredUsages ≠ 0 ∧
      (hidFindNextUsage it.consume).availableUsages ≠ 0 ∧
      it.getItem = hidFindNextUsage it.consume) := by
  have heq : it.getItem =
      if it.consume.availableUsages ≠ 0 then it.consume
      else if it.consume.requiredUsages = 0 then { it.consume with state := .scanForReportItem }
      else if (hidFindNextUsage it.consume).availableUsages = 0 then
        { hidFindNextUsage it.consume with state := .parserComplete }
      else hidFindNextUsage it.consume := rfl
  rw [heq]
  by_cases havail : it.consume.availableUsages = 0
  · rw [if_neg (not_not.2 havail)]
    by_cases hreq : it.consume.requiredUsages = 0
    · rw [if_pos hreq]
      exact Or.inr (Or.inl ⟨havail, hreq, rfl⟩)
    · rw [if_neg hreq]
      by_cases hfound : (hidFindNextUsage it.consume).availableUsages = 0
      · rw [if_pos hfound]
        exact Or.inr (Or.inr (Or.inl ⟨havail, hreq, hfound, rfl⟩))
      · rw [if_neg hfound]
        exact Or.inr (Or.inr (Or.inr ⟨havail, hreq, hfound, rfl⟩))
  · rw [if_pos havail]
    exact Or.inl ⟨havail, rfl⟩

theorem usagePos_consume (h : it.WellFormed) :
    it.consume.usagePos ≤ it.consume.descriptor.length := by
  rw [consume_frame it]
  exact h.usagePos

/-- Taking a usage leaves the walk over the main items and the globals alone. -/
theorem getItem_frame (h : it.WellFormed) :
    it.getItem = { it with
      state := it.getItem.state, usagePos := it.getItem.usagePos, usagePage := it.getItem.usagePage
      usageMinimum := it.getItem.usageMinimum, usageMaximum := it.getItem.usageMaximum
      availableUsages := it.getItem.availableUsages, usageRange := it.getItem.usageRange
      reportPosInBit := it.consume.reportPosInBit
      requiredUsages := it.consume.requiredUsages } := by
  have hsearch : it.consume.availableUsages = 0 → SearchFrame it.consume (hidFindNextUsage it.consume) :=
    fun havail => (hidFindNextUsage_spec havail (usagePos_consume h)).1
  rcases getItem_cases it with ⟨-, heq⟩ | ⟨-, -, heq⟩ | ⟨havail, -, -, heq⟩ | ⟨havail, -, -, heq⟩
  · rw [heq, consume_frame it]
  · rw [heq, consume_frame it]
  · rw [heq, (hsearch havail).eq, consume_frame it]
  · rw [heq, (hsearch havail).eq, consume_frame it]

/-- The usages at hand, the fields that are left and the search after a usage was taken. -/
theorem getItem_progress (h : it.WellFormed) (hstate : it.state = .usagesAvailable) :
    (it.getItem.state = .scanForReportItem ∧ it.getItem.availableUsages = 0 ∧
      it.getItem.requiredUsages = 0) ∨
    it.getItem.state = .parserComplete ∨
    (it.getItem.state = .usagesAvailable ∧ it.getItem.availableUsages ≠ 0 ∧
      (it.descriptorItem.isVariable = false → it.getItem.requiredUsages ≠ 0) ∧
      ((it.getItem.usagePos = it.usagePos ∧ it.getItem.atHand < it.atHand) ∨
        it.usagePos < it.getItem.usagePos)) := by
  obtain ⟨hless, harray⟩ := consume_spec h hstate
  have hst : it.consume.state = .usagesAvailable := by
    rw [consume_frame it]
    exact hstate
  have hpos : it.consume.usagePos = it.usagePos := by rw [consume_frame it]
  rcases getItem_cases it with ⟨havail, heq⟩ | ⟨havail, hreq, heq⟩ | ⟨-, -, -, heq⟩ |
    ⟨havail, hreq, hfound, heq⟩
  · rw [heq]
    exact Or.inr (Or.inr ⟨hst, havail, fun hvar h0 => havail ((harray hvar).2 h0),
      Or.inl ⟨hpos, hless havail⟩⟩)
  · rw [heq]
    exact Or.inl ⟨rfl, havail, hreq⟩
  · rw [heq]
    exact Or.inr (Or.inl rfl)
  · obtain ⟨hsearch, -, -, hmove⟩ := hidFindNextUsage_spec havail (usagePos_consume h)
    have hst' : (hidFindNextUsage it.consume).state = it.consume.state := by rw [hsearch.eq]
    have hreq' : (hidFindNextUsage it.consume).requiredUsages = it.consume.requiredUsages := by
      rw [hsearch.eq]
    rw [heq]
    exact Or.inr (Or.inr ⟨hst'.trans hst, hfound, fun _ => hreq' ▸ hreq, Or.inr (hpos ▸ hmove hfound)⟩)

theorem usagePos_getItem (h : it.WellFormed) : it.getItem.usagePos ≤ it.descriptor.length := by
  have hdesc : it.consume.descriptor = it.descriptor := by rw [consume_frame it]
  have hpos := usagePos_consume h
  rw [hdesc] at hpos
  have hsearch : it.consume.availableUsages = 0 →
      (hidFindNextUsage it.consume).usagePos ≤ it.descriptor.length := fun havail =>
    hdesc ▸ (hidFindNextUsage_spec havail (usagePos_consume h)).2.2.1
  rcases getItem_cases it with ⟨-, heq⟩ | ⟨-, -, heq⟩ | ⟨havail, -, -, heq⟩ | ⟨havail, -, -, heq⟩
  · rw [heq]
    exact hpos
  · rw [heq]
    exact hpos
  · rw [heq]
    exact hsearch havail
  · rw [heq]
    exact hsearch havail

/-- Taking a usage keeps the iterator well formed and brings it nearer to its end. -/
theorem getItem_spec (h : it.WellFormed) (hstate : it.state = .usagesAvailable) :
    it.getItem.WellFormed ∧ it.getItem.descriptor = it.descriptor ∧
      it.getItem.work < it.work := by
  have hframe := getItem_frame h
  have hdesc : it.getItem.descriptor = it.descriptor := by rw [hframe]
  have hiter : it.getItem.descriptorIterator = it.descriptorIterator := by rw [hframe]
  have hitem : it.getItem.descriptorItem = it.descriptorItem := by rw [hframe]
  have hpos : it.getItem.usagePos ≤ it.descriptor.length := usagePos_getItem h
  have hhand := atHand_pos h hstate
  have hwf : (it.getItem.state = .scanForReportItem →
        it.getItem.availableUsages = 0 ∧ it.getItem.requiredUsages = 0) →
      (it.getItem.state = .usagesAvailable → it.getItem.availableUsages ≠ 0) →
      (it.getItem.state = .usagesAvailable → it.descriptorItem.isVariable = false →
        it.getItem.requiredUsages ≠ 0) → it.getItem.WellFormed := by
    intro hscan havail harray
    exact ⟨by rw [hiter, hdesc]; exact h.descriptor, hiter ▸ h.idle,
      by rw [hiter, hdesc]; exact h.passed, hdesc ▸ hpos, hscan, havail,
      hitem ▸ harray⟩
  rw [work_available hstate]
  rcases getItem_progress h hstate with ⟨hst, hscan⟩ | hst | ⟨hst, havail, harray, hmove⟩
  · refine ⟨hwf (fun _ => hscan) ?_ ?_, hdesc, ?_⟩
    · intro hne
      rw [hst] at hne
      cases hne
    · intro hne
      rw [hst] at hne
      cases hne
    · rw [work_scan hst, hiter, hdesc]
      omega
  · refine ⟨hwf ?_ ?_ ?_, hdesc, ?_⟩
    · intro hne
      rw [hst] at hne
      cases hne
    · intro hne
      rw [hst] at hne
      cases hne
    · intro hne
      rw [hst] at hne
      cases hne
    · rw [work_complete hst]
      omega
  · refine ⟨hwf ?_ (fun _ => havail) (fun _ => harray), hdesc, ?_⟩
    · intro hne
      rw [hst] at hne
      cases hne
    · rw [work_available hst, hiter, hdesc]
      rcases hmove with ⟨hsame, hless⟩ | hlt
      · rw [hsame]
        omega
      · have hbound := atHand_lt it.getItem
        omega

/-! ## All usages of a descriptor -/

/-- The iterator as a generator of its usages, each with the globals it is read with. -/
def usageNext : Generator HidUsageIterator (HidUsageItem × HidGlobals) := fun it =>
  it.hasMore.map fun r => if r.2 then some ((r.1.item, r.1.globals), r.1.getItem) else none

/-- The state in which the iterator gives its next usage, if it has one. -/
theorem hasMore_spec (h : it.WellFormed) :
    (∃ t, it.hasMore = some (t, decide (t.state = .usagesAvailable)) ∧ t.WellFormed ∧
      t.descriptor = it.descriptor ∧ t.work ≤ it.work ∧ t.state ≠ .scanForReportItem) ∨
    it.hasMore = none ∧ MeetsReserved it.descriptor := by
  unfold HidUsageIterator.hasMore
  by_cases hstate : it.state = .scanForReportItem
  · simp only [if_pos hstate]
    rcases findNextUsage_spec h hstate with ⟨t, ht, hends⟩ | ⟨hnone, hfail⟩
    · left
      rw [ht]
      refine ⟨t, rfl, hends.wellFormed, hends.descriptor, ?_, ?_⟩
      · rw [work_scan hstate]
        rcases hends.ends with hcomplete | ⟨havail, hlt⟩
        · rw [work_complete hcomplete]
          exact Nat.zero_le _
        · rw [work_available havail, hends.descriptor]
          have hhand := atHand_lt t
          have hinside := hends.wellFormed.idle.inside
          have hrem : t.descriptorIterator.remaining + 1 ≤ it.descriptorIterator.remaining := by
            unfold HidDescriptorIterator.remaining
            rw [hends.wellFormed.descriptor, hends.descriptor] at hinside ⊢
            rw [h.descriptor]
            omega
          exact work_le hrem (Nat.sub_le _ _) hhand
      · rcases hends.ends with hcomplete | ⟨havail, -⟩
        · rw [hcomplete]
          decide
        · rw [havail]
          decide
    · right
      rw [hnone]
      exact ⟨rfl, hfail⟩
  · simp only [if_neg hstate]
    exact Or.inl ⟨it, rfl, h, rfl, le_rfl, hstate⟩

theorem usageNext_spec {a : HidUsageItem × HidGlobals} (h : it.WellFormed)
    (hnext : usageNext it = some (some (a, it'))) :
    (it'.WellFormed ∧ it'.descriptor = it.descriptor) ∧ it'.work < it.work := by
  unfold usageNext at hnext
  rcases hasMore_spec h with ⟨t, ht, hwf, hdesc, hwork, -⟩ | ⟨hnone, -⟩
  · rw [ht, Option.map_some] at hnext
    by_cases hstate : t.state = .usagesAvailable
    · simp only [hstate, decide_true, if_true, Option.some.injEq, Prod.mk.injEq] at hnext
      obtain ⟨-, rfl⟩ := hnext
      obtain ⟨hwf', hdesc', hlt⟩ := getItem_spec hwf hstate
      exact ⟨⟨hwf', hdesc'.trans hdesc⟩, hlt.trans_le hwork⟩
    · simp [hstate] at hnext
  · rw [hnone] at hnext
    cases hnext

theorem usageNext_none (h : it.WellFormed) (hnext : usageNext it = none) :
    MeetsReserved it.descriptor := by
  unfold usageNext at hnext
  rcases hasMore_spec h with ⟨t, ht, -⟩ | ⟨-, hfail⟩
  · rw [ht] at hnext
    cases hnext
  · exact hfail

/-- What holds of every state that the walks over a descriptor go through. -/
theorem wellFormed_of_reaches {descriptor : Bytes} {reportType : HidReportType}
    (h : Reaches usageNext (usageIteratorInit descriptor reportType) it) :
    it.WellFormed ∧ it.descriptor = descriptor ∧ it.work + 2 ≤ parseRounds descriptor := by
  refine h.invariant (fun it => it.WellFormed ∧ it.descriptor = descriptor ∧
    it.work + 2 ≤ parseRounds descriptor) ⟨wellFormed_usageIteratorInit descriptor reportType, rfl,
      work_usageIteratorInit descriptor reportType⟩ ?_
  rintro s a s' ⟨hwf, hdesc, hwork⟩ hnext
  obtain ⟨⟨hwf', hdesc'⟩, hlt⟩ := usageNext_spec hwf hnext
  exact ⟨hwf', hdesc'.trans hdesc, by omega⟩

theorem usages_end_from (h : it.WellFormed) :
    (∃ as, Yields usageNext it as ∧ as.length ≤ it.work) ∨
      ∃ n, Fails usageNext n it ∧ n ≤ it.work := by
  refine yields_or_fails HidUsageIterator.WellFormed HidUsageIterator.work ?_ h
  intro s a s' hs hnext
  obtain ⟨⟨hwf, -⟩, hlt⟩ := usageNext_spec hs hnext
  exact ⟨hwf, hlt⟩

/-- The walks over a descriptor end, after no more usages than the parser has rounds, or they fail at an
item with a reserved tag. -/
theorem usages_end (descriptor : Bytes) (reportType : HidReportType) :
    (∃ as, Yields usageNext (usageIteratorInit descriptor reportType) as ∧
      as.length + 2 ≤ parseRounds descriptor) ∨
    ∃ n, Fails usageNext n (usageIteratorInit descriptor reportType) ∧
      n + 2 ≤ parseRounds descriptor ∧ MeetsReserved descriptor := by
  have hwork := work_usageIteratorInit descriptor reportType
  have hwf := wellFormed_usageIteratorInit descriptor reportType
  rcases usages_end_from hwf with ⟨as, has, hlen⟩ | ⟨n, hfail, hn⟩
  · exact Or.inl ⟨as, has, by omega⟩
  · obtain ⟨s, ⟨hs, hdesc⟩, hnone⟩ :=
      hfail.exists_state (fun s => s.WellFormed ∧ s.descriptor = descriptor) ⟨hwf, rfl⟩ (by
        rintro s a s' ⟨hs, hdesc⟩ hnext
        obtain ⟨⟨hs', hdesc'⟩, -⟩ := usageNext_spec hs hnext
        exact ⟨hs', hdesc'.trans hdesc⟩)
    exact Or.inr ⟨n, hfail, by omega, hdesc ▸ usageNext_none hs hnone⟩

end EdnaDrone
