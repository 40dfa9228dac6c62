import EdnaDrone.Proofs.HidReportProofs

/-!
# Where the fields of a report lie

The layout of a report follows from the sizes and counts of its main items alone: each takes its size
times its count, whether it is padding or data, and a new report id starts again from the first bit. The
iterator computes the positions while it hands out usages, and it comes to the same position however many
usages a main item has.
-/

namespace EdnaDrone

open Lib

/-- Where the next main item starts, and the globals that say how many bits it takes. -/
structure ReportLayout where
  bitPos : UInt16
  size : UInt8
  count : UInt8
  reportId : UInt16
  deriving DecidableEq

def ReportLayout.start : ReportLayout := ⟨0, 0, 0, hidReportIdUndefined⟩

/-- The effect of an item on the layout of the reports of a type. -/
def ReportLayout.item (reportType : HidReportType) (l : ReportLayout) (item : HidDescriptorItem) :
    ReportLayout :=
  match item.itemType with
  | .main =>
    if mainItemTagMatchesReportType item.itemTag reportType then
      { l with bitPos := l.bitPos + l.size.toUInt16 * l.count.toUInt16 }
    else l
  | .global =>
    match globalItemTag item.itemTag with
    | some .reportSize => { l with size := item.itemValue.toUInt32.toUInt8 }
    | some .reportCount => { l with count := item.itemValue.toUInt32.toUInt8 }
    | some .reportID =>
      { l with
        reportId := item.itemValue.toUInt32.toUInt16
        bitPos := if item.itemValue.toUInt32.toUInt16 = l.reportId then l.bitPos else 0 }
    | _ => l
  | .local | .reserved => l

def layoutOf (reportType : HidReportType) (items : List HidDescriptorItem) : ReportLayout :=
  items.foldl (ReportLayout.item reportType) .start

section Parser

variable {s it it' t : HidUsageIterator} {item : HidDescriptorItem}

/-- The layout behind the main item that the iterator is in, with the fields it has left. -/
def HidUsageIterator.ahead (it : HidUsageIterator) : ReportLayout where
  bitPos := it.reportPosInBit + it.globalReportSize.toUInt16 * it.requiredUsages
  size := it.globalReportSize
  count := it.globalReportCount
  reportId := it.globalReportId

theorem ahead_of_required_zero (h : it.requiredUsages = 0) :
    it.ahead = ⟨it.reportPosInBit, it.globalReportSize, it.globalReportCount, it.globalReportId⟩ := by
  unfold HidUsageIterator.ahead
  rw [h, UInt16.mul_zero, UInt16.add_zero]

theorem SearchFrame.ahead (h : SearchFrame s t) : t.ahead = s.ahead := by
  rw [h.eq]
  rfl

/-! ## One step -/

/-- Using up a usage moves on by one field and leaves one field less, also where the rest of the fields
is skipped and where there are more usages than fields. -/
theorem ahead_consume (it : HidUsageIterator) : it.consume.ahead = it.ahead := by
  have hbits : it.consume.reportPosInBit + it.globalReportSize.toUInt16 * it.consume.requiredUsages =
      it.reportPosInBit + it.globalReportSize.toUInt16 * it.requiredUsages := by
    unfold HidUsageIterator.consume HidUsageIterator.nextVariable HidUsageIterator.nextArray
    dsimp only
    split
    · split
      · dsimp only
        grind
      · dsimp only
        grind
    · split
      · dsimp only
        grind
      · dsimp only
        grind
  have hframe := consume_frame it
  have hsize : it.consume.globalReportSize = it.globalReportSize := by rw [hframe]
  have hcount : it.consume.globalReportCount = it.globalReportCount := by rw [hframe]
  have hid : it.consume.globalReportId = it.globalReportId := by rw [hframe]
  unfold HidUsageIterator.ahead
  rw [hsize, hcount, hid, hbits]

/-- The work on an item moves the layout by the item. -/
theorem ahead_processItem (hreq : s.requiredUsages = 0) (h : processItem s item = some t) :
    t.ahead = s.ahead.item s.reportType item := by
  rw [ahead_of_required_zero hreq]
  unfold processItem at h
  unfold ReportLayout.item
  cases htype : item.itemType with
  | main =>
    rw [htype] at h
    dsimp only at h ⊢
    by_cases hmatch : mainItemTagMatchesReportType item.itemTag s.reportType = true
    · rw [if_pos hmatch] at h ⊢
      split at h
      · cases h
        refine ahead_of_required_zero ?_
        exact hreq
      · split at h
        · rename_i hcount
          cases h
          rw [ahead_of_required_zero hreq, hcount]
          simp
        · cases h
          rfl
    · rw [if_neg hmatch] at h ⊢
      cases h
      exact ahead_of_required_zero hreq
  | global =>
    rw [htype] at h
    dsimp only at h ⊢
    obtain ⟨u, hu, rfl⟩ := Option.map_eq_some_iff.1 h
    unfold handleGlobalItem at hu
    cases htag : globalItemTag item.itemTag with
    | none =>
      rw [htag] at hu
      cases hu
    | some tag =>
      rw [htag] at hu
      by_cases hid : tag = .reportID
      · cases hid
        cases hu
        by_cases hsame : item.itemValue.toUInt32.toUInt16 = s.globalReportId
        · rw [if_neg (not_not.2 hsame)]
          dsimp only
          rw [if_pos hsame]
          refine ahead_of_required_zero ?_
          exact hreq
        · rw [if_pos hsame]
          dsimp only
          rw [if_neg hsame]
          refine ahead_of_required_zero ?_
          exact hreq
      · have hsame : u.globalReportId = s.globalReportId ∧ u.requiredUsages = 0 := by
          cases tag <;> cases hu <;> first | exact absurd rfl hid | exact ⟨rfl, hreq⟩
        rw [if_neg (not_not.2 hsame.1), ahead_of_required_zero hsame.2]
        cases tag <;> cases hu <;> first | exact absurd rfl hid | rfl
  | «local» =>
    rw [htype] at h
    cases h
    exact ahead_of_required_zero hreq
  | reserved =>
    rw [htype] at h
    cases h
    exact ahead_of_required_zero hreq

/-- A main item with fields of the reports of a type. -/
structure HidDescriptorItem.IsData (reportType : HidReportType) (item : HidDescriptorItem) : Prop where
  itemType : item.itemType = .main
  itemTag : mainItemTagMatchesReportType item.itemTag reportType = true
  notConstant : item.isConstant = false

/-- Only such an item makes usages required. -/
theorem isData_of_required (hreq : s.requiredUsages = 0) (h : processItem s item = some t)
    (ht : t.requiredUsages ≠ 0) : item.IsData s.reportType := by
  rcases processItem_cases s item with ⟨-, hnone⟩ | ⟨u, hu, -, hother⟩
  · rw [hnone] at h
    cases h
  · rw [hu] at h
    cases h
    have htype : item.itemType = .main := by
      by_contra hne
      exact ht ((hother hne).trans hreq)
    unfold processItem at hu
    rw [htype] at hu
    dsimp only at hu
    by_cases hmatch : mainItemTagMatchesReportType item.itemTag s.reportType = true
    · rw [if_pos hmatch] at hu
      by_cases hconst : item.isConstant = true
      · rw [if_pos hconst] at hu
        cases hu
        exact absurd hreq ht
      · exact ⟨htype, hmatch, Bool.eq_false_iff.2 hconst⟩
    · rw [if_neg hmatch] at hu
      cases hu
      exact absurd hreq ht

variable [WideShift]

theorem ahead_getItem (h : it.WellFormed) : it.getItem.ahead = it.ahead := by
  have hframe : it.getItem.ahead = it.consume.ahead := by
    rw [getItem_frame h, consume_frame it]
    rfl
  rw [hframe, ahead_consume]

/-! ## Runs -/

/-- The iterator has taken the items up to its position, and its layout is theirs. -/
structure LaidOut (descriptor : Bytes) (reportType : HidReportType) (items : List HidDescriptorItem)
    (it : HidUsageIterator) : Prop where
  descriptor_eq : it.descriptor = descriptor
  reportType_eq : it.reportType = reportType
  itemsTo : ItemsTo descriptor it.descriptorIterator.descriptorPos items
  ahead_eq : it.ahead = layoutOf reportType items

/-- While it hands out usages, the last of the items is the one they belong to. -/
def Positioned (descriptor : Bytes) (reportType : HidReportType) (it : HidUsageIterator) : Prop :=
  ∃ items, LaidOut descriptor reportType items it ∧
    (it.state = .usagesAvailable →
      it.descriptorItem.IsData reportType ∧ ∃ pre, items = pre ++ [it.descriptorItem])

variable {descriptor : Bytes} {reportType : HidReportType} {items : List HidDescriptorItem}

theorem positioned_usageIteratorInit (descriptor : Bytes) (reportType : HidReportType) :
    Positioned descriptor reportType (usageIteratorInit descriptor reportType) :=
  ⟨[], ⟨rfl, rfl, .nil, rfl⟩, fun h => nomatch h⟩

/-- The iterator behind an item. -/
theorem LaidOut.take (h : LaidOut descriptor reportType items it) (hwf : it.WellFormed)
    (hreq : it.requiredUsages = 0)
    (hitem : parseItem (it.descriptorIterator.descriptor.drop it.descriptorIterator.descriptorPos) =
      some item) (ht : processItem (it.take item) item = some t) :
    LaidOut descriptor reportType (items ++ [item]) t ∧ t.descriptorItem = item ∧
      t.state = it.state := by
  have hframe := (processItem_frame ht).eq
  have hiter : t.descriptorIterator = it.descriptorIterator.behind item := by
    rw [hframe]
    rfl
  have hdesc : t.descriptor = it.descriptor := by
    rw [hframe]
    rfl
  have htype : t.reportType = it.reportType := by
    rw [hframe]
    rfl
  rw [hwf.descriptor, h.descriptor_eq] at hitem
  refine ⟨⟨hdesc.trans h.descriptor_eq, htype.trans h.reportType_eq, ?_, ?_⟩, ?_, ?_⟩
  · rw [hiter]
    exact h.itemsTo.snoc hitem
  · have hahead := ahead_processItem (s := it.take item) hreq ht
    have hsame : (it.take item).ahead = it.ahead := rfl
    have htake : (it.take item).reportType = reportType := h.reportType_eq
    rw [hahead, hsame, h.ahead_eq, htake, layoutOf, layoutOf, List.foldl_append]
    rfl
  · rw [hframe]
    rfl
  · rw [hframe]
    rfl

/-- A state that differs in nothing that the layout depends on. -/
theorem LaidOut.congr (h : LaidOut descriptor reportType items it) (hd : t.descriptor = it.descriptor)
    (hrt : t.reportType = it.reportType)
    (hpos : t.descriptorIterator.descriptorPos = it.descriptorIterator.descriptorPos)
    (hahead : t.ahead = it.ahead) : LaidOut descriptor reportType items t :=
  ⟨hd.trans h.descriptor_eq, hrt.trans h.reportType_eq, hpos ▸ h.itemsTo, hahead.trans h.ahead_eq⟩

theorem Positioned.again (h : Positioned descriptor reportType it) (hw : Walking s it)
    (hbody : findNextUsageBody it = .again it') : Positioned descriptor reportType it' := by
  obtain ⟨items, hlaid, -⟩ := h
  have hround := findRound it hw.wellFormed.idle
  rw [hbody] at hround
  cases hround with
  | skip item t hitem ht hreq usagePos usagePage husage =>
    obtain ⟨hlaid', -, hstate⟩ := hlaid.take hw.wellFormed (hw.wellFormed.scan hw.state).2 hitem ht
    refine ⟨_, hlaid'.congr rfl rfl rfl rfl, ?_⟩
    intro hne
    exact absurd ((hstate.trans hw.state).symm.trans hne) (by decide)

theorem Positioned.done (h : Positioned descriptor reportType it) (hw : Walking s it)
    (hbody : findNextUsageBody it = .done (some it')) : Positioned descriptor reportType it' := by
  obtain ⟨items, hlaid, -⟩ := h
  have hround := findRound it hw.wellFormed.idle
  rw [hbody] at hround
  cases hround with
  | noItem valid => exact ⟨_, hlaid.congr rfl rfl rfl rfl, fun hne => nomatch hne⟩
  | field item t hitem ht hreq state hstate =>
    have hscan := hw.wellFormed.scan hw.state
    obtain ⟨hlaid', hcurrent, -⟩ := hlaid.take hw.wellFormed hscan.2 hitem ht
    have hdata : item.IsData reportType := by
      rw [← hlaid.reportType_eq]
      exact isData_of_required (s := it.take item) hscan.2 ht hreq
    have hframe := (processItem_frame ht).eq
    have hsearch : SearchFrame t (hidFindNextUsage t) := by
      refine (hidFindNextUsage_spec ?_ ?_).1
      · rw [hframe]
        exact hscan.1
      · rw [hframe]
        exact hw.wellFormed.usagePos
    have hitem' : (hidFindNextUsage t).descriptorItem = item := by
      rw [hsearch.eq]
      exact hcurrent
    refine ⟨items ++ [item], hlaid'.congr ?_ ?_ ?_ hsearch.ahead, fun _ => ?_⟩
    · show (hidFindNextUsage t).descriptor = t.descriptor
      rw [hsearch.eq]
    · show (hidFindNextUsage t).reportType = t.reportType
      rw [hsearch.eq]
    · show (hidFindNextUsage t).descriptorIterator.descriptorPos = t.descriptorIterator.descriptorPos
      rw [hsearch.eq]
    · show (hidFindNextUsage t).descriptorItem.IsData reportType ∧
        ∃ pre, items ++ [item] = pre ++ [(hidFindNextUsage t).descriptorItem]
      rw [hitem']
      exact ⟨hdata, items, rfl⟩

theorem Positioned.findNextUsage (h : Positioned descriptor reportType s) (hwf : s.WellFormed)
    (hstate : s.state = .scanForReportItem) (hfind : findNextUsage s = some t) :
    Positioned descriptor reportType t := by
  have hs : Walking s s ∧ Positioned descriptor reportType s := ⟨⟨hwf, hstate, rfl, le_rfl⟩, h⟩
  have hloop : loop findNextUsageBody (s.descriptor.length + 1) s = some (some t) := by
    unfold EdnaDrone.findNextUsage at hfind
    cases hr : loop findNextUsageBody (s.descriptor.length + 1) s with
    | none =>
      rw [hr] at hfind
      cases hfind
    | some r =>
      rw [hr] at hfind
      exact congrArg some hfind
  refine loop_post (fun it => Walking s it ∧ Positioned descriptor reportType it)
    (fun r => ∀ t, r = some t → Positioned descriptor reportType t) hloop hs ?_ ?_ t rfl
  · rintro it it' ⟨hw, hl⟩ hb
    exact ⟨(hw.again hb).1, hl.again hw hb⟩
  · rintro it r ⟨hw, hl⟩ hb u rfl
    exact hl.done hw hb

theorem Positioned.hasMore {more : Bool} (h : Positioned descriptor reportType it)
    (hwf : it.WellFormed) (hmore : it.hasMore = some (t, more)) :
    Positioned descriptor reportType t := by
  unfold HidUsageIterator.hasMore at hmore
  by_cases hstate : it.state = .scanForReportItem
  · simp only [if_pos hstate] at hmore
    obtain ⟨u, hu, heq⟩ := Option.map_eq_some_iff.1 hmore
    cases heq
    exact h.findNextUsage hwf hstate hu
  · simp only [if_neg hstate, Option.map_some, Option.some.injEq, Prod.mk.injEq] at hmore
    rw [← hmore.1]
    exact h

theorem Positioned.getItem (h : Positioned descriptor reportType it) (hwf : it.WellFormed)
    (hstate : it.state = .usagesAvailable) : Positioned descriptor reportType it.getItem := by
  obtain ⟨items, hlaid, hlast⟩ := h
  have hitem : it.getItem.descriptorItem = it.descriptorItem := by rw [getItem_frame hwf]
  refine ⟨items, hlaid.congr ?_ ?_ ?_ (ahead_getItem hwf), fun _ => ?_⟩
  · rw [getItem_frame hwf]
  · rw [getItem_frame hwf]
  · rw [getItem_frame hwf]
  · rw [hitem]
    exact hlast hstate

/-- The state that gives a usage, with what the loop around it keeps. -/
theorem hasMore_available {more : Bool} (hwf : it.WellFormed) (hmore : it.hasMore = some (t, more)) :
    t.WellFormed ∧ t.descriptor = it.descriptor ∧ (more = true → t.state = .usagesAvailable) := by
  rcases hasMore_spec hwf with ⟨u, hu, hwf', hdesc, -⟩ | ⟨hnone, -⟩
  · rw [hmore, Option.some.injEq, Prod.mk.injEq] at hu
    obtain ⟨rfl, hst⟩ := hu
    refine ⟨hwf', hdesc, fun h => ?_⟩
    rw [h] at hst
    exact of_decide_eq_true hst.symm
  · rw [hnone] at hmore
    cases hmore

theorem positioned_of_reaches
    (h : Reaches usageNext (usageIteratorInit descriptor reportType) it) :
    it.WellFormed ∧ Positioned descriptor reportType it := by
  refine h.invariant (fun it => it.WellFormed ∧ Positioned descriptor reportType it)
    ⟨wellFormed_usageIteratorInit descriptor reportType,
      positioned_usageIteratorInit descriptor reportType⟩ ?_
  rintro s a s' ⟨hwf, hpos⟩ hnext
  refine ⟨(usageNext_spec hwf hnext).1.1, ?_⟩
  rcases usageNext_cases s with ⟨-, heq⟩ | ⟨t, -, heq⟩ | ⟨t, hmore, heq⟩
  · rw [heq] at hnext
    cases hnext
  · rw [heq] at hnext
    cases hnext
  · rw [heq] at hnext
    cases hnext
    obtain ⟨hwf', -, hstate⟩ := hasMore_available hwf hmore
    exact (hpos.hasMore hwf hmore).getItem hwf' (hstate rfl)

/-- Whenever the iterator hands out a usage, its field belongs to a main item of the descriptor, has the
size and the report id that the items before it set, and lies as many fields before the end of the main
item as are left; where the main item starts and ends follows from the items up to it alone. -/
theorem usage_positions
    (h : Reaches usageNext (usageIteratorInit descriptor reportType) it)
    (hmore : it.hasMore = some (t, true)) :
    ∃ pre, ItemsTo descriptor t.descriptorIterator.descriptorPos (pre ++ [t.descriptorItem]) ∧
      t.descriptorItem.IsData reportType ∧
      let l := layoutOf reportType pre
      let l' := layoutOf reportType (pre ++ [t.descriptorItem])
      (t.item.size = l.size ∧ t.item.reportId = l.reportId) ∧
        l' = { l with bitPos := l.bitPos + l.size.toUInt16 * l.count.toUInt16 } ∧
          t.item.bitPos + l.size.toUInt16 * t.requiredUsages = l'.bitPos := by
  obtain ⟨hwf, hpos⟩ := positioned_of_reaches h
  obtain ⟨-, -, hstate⟩ := hasMore_available hwf hmore
  obtain ⟨items, hlaid, hlast⟩ := hpos.hasMore hwf hmore
  obtain ⟨hdata, pre, rfl⟩ := hlast (hstate rfl)
  have hstep : layoutOf reportType (pre ++ [t.descriptorItem]) =
      (layoutOf reportType pre).item reportType t.descriptorItem := by
    rw [layoutOf, layoutOf, List.foldl_append]
    rfl
  have hmain : (layoutOf reportType pre).item reportType t.descriptorItem =
      { layoutOf reportType pre with
        bitPos := (layoutOf reportType pre).bitPos +
          (layoutOf reportType pre).size.toUInt16 * (layoutOf reportType pre).count.toUInt16 } := by
    unfold ReportLayout.item
    rw [hdata.itemType]
    exact if_pos hdata.itemTag
  have hahead := hlaid.ahead_eq
  rw [hstep, hmain] at hahead
  have hsize : t.globalReportSize = (layoutOf reportType pre).size := congrArg ReportLayout.size hahead
  have hid : t.globalReportId = (layoutOf reportType pre).reportId :=
    congrArg ReportLayout.reportId hahead
  have hbits := congrArg ReportLayout.bitPos hahead
  refine ⟨pre, hlaid.itemsTo, hdata, ⟨hsize, hid⟩, hstep.trans hmain, ?_⟩
  rw [hstep, hmain, ← hsize]
  rw [← hsize] at hbits
  exact hbits

end Parser

/-- The second of the three buttons of the pad, in the second main item of its descriptor. -/
theorem usage_positions_button :
    letI := shiftModulo
    ∃ it t, Reaches usageNext (usageIteratorInit padDescriptor .input) it ∧
      it.hasMore = some (t, true) ∧ (t.item.usage = 2 ∧ t.requiredUsages = 2) ∧
      ∃ pre, ItemsTo padDescriptor t.descriptorIterator.descriptorPos (pre ++ [t.descriptorItem]) ∧
        t.descriptorItem.IsData .input ∧
        let l := layoutOf .input pre
        let l' := layoutOf .input (pre ++ [t.descriptorItem])
        (t.item.size = l.size ∧ t.item.reportId = l.reportId) ∧
          l' = { l with bitPos := l.bitPos + l.size.toUInt16 * l.count.toUInt16 } ∧
            t.item.bitPos + l.size.toUInt16 * t.requiredUsages = l'.bitPos := by
  let _ := shiftModulo
  have hsome : ((skip usageNext 3 (usageIteratorInit padDescriptor .input)).bind fun it =>
      it.hasMore.map fun r => (r.2, r.1.item.usage, r.1.requiredUsages)) = some (true, 2, 2) := by
    decide
  obtain ⟨it, hskip, hmap⟩ := Option.bind_eq_some_iff.1 hsome
  obtain ⟨⟨t, more⟩, hmore, heq⟩ := Option.map_eq_some_iff.1 hmap
  simp only [Prod.mk.injEq] at heq
  obtain ⟨rfl, hitem⟩ := heq
  exact ⟨it, t, reaches_of_skip hskip, hmore, hitem, usage_positions (reaches_of_skip hskip) hmore⟩

end EdnaDrone
