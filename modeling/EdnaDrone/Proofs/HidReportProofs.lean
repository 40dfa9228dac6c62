import EdnaDrone.Proofs.HidUsageProofs

/-!
# Reading a report

The usages of a descriptor do not depend on the report: the parser goes through the same list for every
report, leaves out the usages of other reports and hands over the rest, one by one.
-/

namespace EdnaDrone

open Lib

/-- Apart from the number of rounds, so that nothing computes it. -/
theorem exists_add_two {n m : ℕ} (h : n + 2 ≤ m) : ∃ k, m = k + 1 + 1 ∧ n ≤ k :=
  ⟨m - 2, by omega, by omega⟩

section Parser

variable [WideShift] {p : HidParser} {it it' : HidUsageIterator} {a : HidUsageItem × HidGlobals}
  {as : List (HidUsageItem × HidGlobals)} {fuel n : ℕ}

/-- The fields of a report, given the usages of its descriptor. -/
def reportFields (as : List (HidUsageItem × HidGlobals)) (report : ℕ → UInt8) (reportLen : UInt16) :
    List (HidGlobals × HidField) :=
  (as.filter fun a => !a.1.otherReport (report 0)).map fun a => (a.2, a.1.field report reportLen)

/-! ## The search for the next usage of the report -/

/-- The parser after it has taken a usage. -/
def HidParser.after (p : HidParser) (a : HidUsageItem) (it : HidUsageIterator) : HidParser :=
  { p with usageIterator := it, descriptorUsageItem := a }

/-- A usage of the report is at hand. -/
def HidParser.ready (p : HidParser) : HidParser := { p with haveReportUsageReady := true }

theorem usageNext_cases (it : HidUsageIterator) :
    (it.hasMore = none ∧ usageNext it = none) ∨
    (∃ t, it.hasMore = some (t, false) ∧ usageNext it = some none) ∨
    ∃ t, it.hasMore = some (t, true) ∧
      usageNext it = some (some ((t.item, t.globals), t.getItem)) := by
  unfold usageNext
  cases h : it.hasMore with
  | none => exact Or.inl ⟨rfl, rfl⟩
  | some r =>
    obtain ⟨t, more⟩ := r
    cases more with
    | false => exact Or.inr (Or.inl ⟨t, rfl, rfl⟩)
    | true => exact Or.inr (Or.inr ⟨t, rfl, rfl⟩)

theorem hasMoreBody_none (h : p.haveReportUsageReady = false)
    (hnext : usageNext p.usageIterator = none) : p.hasMoreBody = .done none := by
  unfold HidParser.hasMoreBody
  rcases usageNext_cases p.usageIterator with ⟨hmore, -⟩ | ⟨t, -, heq⟩ | ⟨t, -, heq⟩
  · rw [h, hmore]
    rfl
  · rw [heq] at hnext
    cases hnext
  · rw [heq] at hnext
    cases hnext

theorem hasMoreBody_stop (h : p.haveReportUsageReady = false)
    (hnext : usageNext p.usageIterator = some none) :
    ∃ t, p.hasMoreBody = .done (some { p with usageIterator := t }) := by
  unfold HidParser.hasMoreBody
  rcases usageNext_cases p.usageIterator with ⟨-, heq⟩ | ⟨t, hmore, -⟩ | ⟨t, -, heq⟩
  · rw [heq] at hnext
    cases hnext
  · rw [h, hmore]
    exact ⟨t, rfl⟩
  · rw [heq] at hnext
    cases hnext

theorem hasMoreBody_next (h : p.haveReportUsageReady = false)
    (hnext : usageNext p.usageIterator = some (some (a, it'))) :
    p.hasMoreBody = .again (if a.1.otherReport (p.report 0) then p.after a.1 it'
      else (p.after a.1 it').ready) := by
  unfold HidParser.hasMoreBody
  rcases usageNext_cases p.usageIterator with ⟨-, heq⟩ | ⟨t, -, heq⟩ | ⟨t, hmore, heq⟩
  · rw [heq] at hnext
    cases hnext
  · rw [heq] at hnext
    cases hnext
  · rw [heq] at hnext
    cases hnext
    simp only [h, hmore, Bool.false_eq_true, if_false]
    cases hother : t.item.otherReport (p.report 0) with
    | true =>
      rw [if_pos rfl, if_pos rfl, HidParser.after, h]
    | false => rfl

theorem loop_ready : loop HidParser.hasMoreBody (fuel + 1) p.ready = some (some p.ready) :=
  loop_done (if_pos rfl)

/-- The search ends within as many rounds as there are usages, and two more. -/
theorem exists_loop_hasMoreBody (h : p.haveReportUsageReady = false)
    (hend : EndsAfter usageNext n p.usageIterator) :
    ∃ r, loop HidParser.hasMoreBody (n + 2) p = some r := by
  induction n generalizing p with
  | zero =>
    rcases hend.stop_or_fail with hstop | hfail
    · obtain ⟨t, ht⟩ := hasMoreBody_stop h hstop
      exact ⟨_, loop_done ht⟩
    · exact ⟨_, loop_done (hasMoreBody_none h hfail)⟩
  | succ n ih =>
    obtain ⟨a, it', hnext, hrest⟩ := hend.exists_next
    rw [loop_again (hasMoreBody_next h hnext)]
    split
    · exact ih (p := p.after a.1 it') h hrest
    · exact ⟨_, loop_ready⟩

/-- `n` more usages at most, and the parser has the rounds for them. -/
structure HidParser.HasRounds (p : HidParser) (n : ℕ) : Prop where
  notReady : p.haveReportUsageReady = false
  wellFormed : p.usageIterator.WellFormed
  rounds : n + 2 ≤ parseRounds p.usageIterator.descriptor

theorem HidParser.HasRounds.after (h : p.HasRounds (n + 1))
    (hnext : usageNext p.usageIterator = some (some (a, it'))) : (p.after a.1 it').HasRounds n := by
  obtain ⟨⟨hwf, hdesc⟩, -⟩ := usageNext_spec h.wellFormed hnext
  refine ⟨h.notReady, hwf, ?_⟩
  show n + 2 ≤ parseRounds it'.descriptor
  rw [hdesc]
  exact (Nat.le_succ _).trans h.rounds

/-- The rest of the search is the search of the parser behind a usage that is left out. -/
theorem hasMore_skip (h : p.HasRounds (n + 1))
    (hnext : usageNext p.usageIterator = some (some (a, it')))
    (hend : EndsAfter usageNext n it')
    (hother : a.1.otherReport (p.report 0) = true) : p.hasMore = (p.after a.1 it').hasMore := by
  obtain ⟨⟨-, hdesc⟩, -⟩ := usageNext_spec h.wellFormed hnext
  obtain ⟨r, hr⟩ := exists_loop_hasMoreBody (p := p.after a.1 it') h.notReady hend
  have hbody := hasMoreBody_next h.notReady hnext
  rw [if_pos hother] at hbody
  obtain ⟨m, hm, hle⟩ := exists_add_two h.rounds
  unfold HidParser.hasMore
  show ((loop HidParser.hasMoreBody (parseRounds p.usageIterator.descriptor) p).getD none).map _ =
    ((loop HidParser.hasMoreBody (parseRounds it'.descriptor) (p.after a.1 it')).getD none).map _
  rw [hdesc, hm, loop_again hbody, loop_mono hr (by omega), loop_mono hr (by omega)]

theorem hasMore_take (h : p.HasRounds n)
    (hnext : usageNext p.usageIterator = some (some (a, it')))
    (hother : a.1.otherReport (p.report 0) = false) :
    p.hasMore = some ((p.after a.1 it').ready, true) := by
  have hbody := hasMoreBody_next h.notReady hnext
  rw [if_neg (by rw [hother]; decide)] at hbody
  obtain ⟨m, hm, -⟩ := exists_add_two h.rounds
  unfold HidParser.hasMore
  rw [hm, loop_again hbody, loop_ready]
  rfl

theorem hasMore_stop (h : p.HasRounds n) (hnext : usageNext p.usageIterator = some none) :
    ∃ q, p.hasMore = some (q, false) := by
  obtain ⟨t, ht⟩ := hasMoreBody_stop h.notReady hnext
  obtain ⟨m, hm, -⟩ := exists_add_two h.rounds
  unfold HidParser.hasMore
  rw [hm, loop_done ht]
  refine ⟨{ p with usageIterator := t }, ?_⟩
  show some (({ p with usageIterator := t } : HidParser), p.haveReportUsageReady) = _
  rw [h.notReady]

theorem hasMore_none (h : p.HasRounds n) (hnext : usageNext p.usageIterator = none) :
    p.hasMore = none := by
  obtain ⟨m, hm, -⟩ := exists_add_two h.rounds
  unfold HidParser.hasMore
  rw [hm, loop_done (hasMoreBody_none h.notReady hnext)]
  rfl

/-! ## The loop over the fields -/

section Parse

variable {D : Type} {parseUsage : D → HidGlobals → HidField → Option D} {d : D}

/-- The globals that a field is read with are those of its usage. -/
theorem globals_usageNext (h : it.WellFormed) (hnext : usageNext it = some (some (a, it'))) :
    it'.globals = a.2 := by
  rcases usageNext_cases it with ⟨-, heq⟩ | ⟨t, -, heq⟩ | ⟨t, hmore, heq⟩
  · rw [heq] at hnext
    cases hnext
  · rw [heq] at hnext
    cases hnext
  · rcases hasMore_spec h with ⟨u, hu, hwf, -⟩ | ⟨hnone, -⟩
    · rw [hmore, Option.some.injEq, Prod.mk.injEq] at hu
      obtain ⟨rfl, -⟩ := hu
      rw [heq] at hnext
      cases hnext
      rw [getItem_frame hwf]
      rfl
    · rw [hnone] at hmore
      cases hmore

theorem parseBody_eq : parseBody parseUsage (p, d) = parseNext parseUsage d p.hasMore := rfl

theorem loop_parseBody_skip (h : p.HasRounds (n + 1))
    (hnext : usageNext p.usageIterator = some (some (a, it')))
    (hend : EndsAfter usageNext n it')
    (hother : a.1.otherReport (p.report 0) = true) :
    loop (parseBody parseUsage) (fuel + 1) (p, d) =
      loop (parseBody parseUsage) (fuel + 1) (p.after a.1 it', d) := by
  rw [loop, loop, parseBody_eq, parseBody_eq, hasMore_skip h hnext hend hother]

theorem parseBody_take (parseUsage : D → HidGlobals → HidField → Option D) (d : D) (h : p.HasRounds n)
    (hnext : usageNext p.usageIterator = some (some (a, it')))
    (hother : a.1.otherReport (p.report 0) = false) :
    parseBody parseUsage (p, d) =
      (parseUsage d a.2 (a.1.field p.report p.reportLen)).elim (.done none)
        fun d' => .again (p.after a.1 it', d') := by
  have hglobals : (p.after a.1 it').ready.usageIterator.globals = a.2 :=
    globals_usageNext h.wellFormed hnext
  have hget : (p.after a.1 it').ready.getField =
      (p.after a.1 it', a.1.field p.report p.reportLen) := by
    show (({ (p.after a.1 it').ready with haveReportUsageReady := false } : HidParser), _) = _
    have hsame : { (p.after a.1 it').ready with haveReportUsageReady := false } = p.after a.1 it' := by
      unfold HidParser.ready HidParser.after
      rw [← h.notReady]
    rw [hsame]
    rfl
  rw [parseBody_eq, hasMore_take h hnext hother]
  unfold parseNext
  dsimp only
  rw [hglobals, hget]
  dsimp only
  cases parseUsage d a.2 (a.1.field p.report p.reportLen) <;> rfl

/-- The loop over the fields is the fold over the fields of the report. -/
theorem loop_parseBody_yields (hy : Yields usageNext it as) (hp : p.usageIterator = it)
    (h : p.HasRounds as.length) (hfuel : as.length + 2 ≤ fuel) :
    loop (parseBody parseUsage) fuel (p, d) =
      some ((reportFields as p.report p.reportLen).foldlM (fun d x => parseUsage d x.1 x.2) d) := by
  induction hy generalizing p d fuel with
  | stop hnext =>
    rw [← hp] at hnext
    obtain ⟨q, hq⟩ := hasMore_stop h hnext
    obtain ⟨m, rfl⟩ : ∃ m, fuel = m + 1 := ⟨fuel - 1, by omega⟩
    refine loop_done ?_
    rw [parseBody_eq, hq]
    rfl
  | next hnext hrest ih =>
    rename_i s s' a as'
    rw [← hp] at hnext
    rw [List.length_cons] at hfuel h
    obtain ⟨m, rfl⟩ : ∃ m, fuel = m + 1 := ⟨fuel - 1, by omega⟩
    have hafter := h.after hnext
    cases hother : a.1.otherReport (p.report 0) with
    | true =>
      rw [loop_parseBody_skip h hnext (Or.inl ⟨_, hrest, rfl⟩) hother, ih rfl hafter (by omega)]
      unfold reportFields
      rw [List.filter_cons_of_neg (by rw [hother]; decide)]
      rfl
    | false =>
      have hfields : reportFields (a :: as') p.report p.reportLen =
          (a.2, a.1.field p.report p.reportLen) :: reportFields as' p.report p.reportLen := by
        unfold reportFields
        rw [List.filter_cons_of_pos (by rw [hother]; rfl), List.map_cons]
      have hbody := parseBody_take parseUsage d h hnext hother
      rw [hfields, List.foldlM_cons]
      cases hparse : parseUsage d a.2 (a.1.field p.report p.reportLen) with
      | none =>
        rw [hparse] at hbody
        exact loop_done hbody
      | some d' =>
        rw [hparse] at hbody
        rw [loop_again hbody, ih rfl hafter (by omega)]
        rfl

/-- If the walk over the descriptor fails, so does the loop. -/
theorem loop_parseBody_fails (hf : Fails usageNext n it) (hp : p.usageIterator = it)
    (h : p.HasRounds n) (hfuel : n + 2 ≤ fuel) :
    loop (parseBody parseUsage) fuel (p, d) = some none := by
  induction hf generalizing p d fuel with
  | here hnext =>
    rw [← hp] at hnext
    obtain ⟨m, rfl⟩ : ∃ m, fuel = m + 1 := ⟨fuel - 1, by omega⟩
    refine loop_done ?_
    rw [parseBody_eq, hasMore_none h hnext]
    rfl
  | next hnext hrest ih =>
    rename_i s s' a n
    rw [← hp] at hnext
    obtain ⟨m, rfl⟩ : ∃ m, fuel = m + 1 := ⟨fuel - 1, by omega⟩
    have hafter := h.after hnext
    cases hother : a.1.otherReport (p.report 0) with
    | true =>
      rw [loop_parseBody_skip h hnext (Or.inr hrest) hother, ih rfl hafter (by omega)]
    | false =>
      have hbody := parseBody_take parseUsage d h hnext hother
      cases hparse : parseUsage d a.2 (a.1.field p.report p.reportLen) with
      | none =>
        rw [hparse] at hbody
        exact loop_done hbody
      | some d' =>
        rw [hparse] at hbody
        rw [loop_again hbody, ih rfl hafter (by omega)]

end Parse

/-- The loop over the fields is the fold over them if the walk over the descriptor comes to its end. -/
theorem parseFields_of_yields {D : Type} (parseUsage : D → HidGlobals → HidField → Option D)
    {descriptor : Bytes} (has : Yields usageNext (usageIteratorInit descriptor .input) as)
    (report : ℕ → UInt8) (reportLen : UInt16) (d : D) :
    parseFields parseUsage descriptor report reportLen d =
      (reportFields as report reportLen).foldlM (fun d x => parseUsage d x.1 x.2) d := by
  rcases usages_end descriptor .input with ⟨bs, hbs, hlen⟩ | ⟨n, hfail, -⟩
  · rw [hbs.unique has] at hlen
    have hrounds : HidParser.HasRounds (hidParserInit descriptor .input report reportLen) as.length :=
      ⟨rfl, wellFormed_usageIteratorInit descriptor .input, hlen⟩
    unfold parseFields
    rw [loop_parseBody_yields has rfl hrounds hlen]
    rfl
  · exact absurd hfail has.not_fails

/-- For every descriptor, either the loop over the fields comes to its end for every report and every
parser, working on the fields of the report in the order of the descriptor, or the descriptor has an item
with a reserved tag and no report gets through. -/
theorem parseFields_eq (descriptor : Bytes) :
    (∃ as, Yields usageNext (usageIteratorInit descriptor .input) as ∧
      ∀ (D : Type) (parseUsage : D → HidGlobals → HidField → Option D) (report : ℕ → UInt8)
        (reportLen : UInt16) (d : D),
        parseFields parseUsage descriptor report reportLen d =
          (reportFields as report reportLen).foldlM (fun d x => parseUsage d x.1 x.2) d) ∨
    (MeetsReserved descriptor ∧
      ∀ (D : Type) (parseUsage : D → HidGlobals → HidField → Option D) (report : ℕ → UInt8)
        (reportLen : UInt16) (d : D),
        parseFields parseUsage descriptor report reportLen d = none) := by
  rcases usages_end descriptor .input with ⟨as, has, -⟩ | ⟨n, hfail, hn, hitem⟩
  · exact Or.inl ⟨as, has, fun D parseUsage => parseFields_of_yields parseUsage has⟩
  · refine Or.inr ⟨hitem, ?_⟩
    intro D parseUsage report reportLen d
    have hrounds : HidParser.HasRounds (hidParserInit descriptor .input report reportLen) n :=
      ⟨rfl, wellFormed_usageIteratorInit descriptor .input, hn⟩
    unfold parseFields
    rw [loop_parseBody_fails hfail rfl hrounds hn]
    rfl

/-- The device after the callbacks that come before the fields. -/
def ReportParser.prepared {D : Type} (rp : ReportParser D) (d : D) (report : ℕ → UInt8)
    (reportLen : UInt16) : D :=
  let d := rp.initReport.elim d fun f => f d
  rp.parseInputReport.elim d fun f => f d report reportLen

/-- The loops that work on a descriptor have the rounds they need, from every state they are entered in.
So where they have no result, an assertion has failed. -/
structure RoundsSuffice (descriptor : Bytes) : Prop where
  /-- The loop of `btstack_hid_usage_iterator_find_next_usage`. -/
  walk : ∀ it, Reaches usageNext (usageIteratorInit descriptor .input) it →
    it.state = .scanForReportItem →
      ∃ r, loop findNextUsageBody (it.descriptor.length + 1) it = some r
  /-- The loop of `btstack_hid_parser_has_more`. -/
  search : ∀ p : HidParser, Reaches usageNext (usageIteratorInit descriptor .input) p.usageIterator →
    ∃ r, loop HidParser.hasMoreBody (parseRounds p.usageIterator.descriptor) p = some r
  /-- The loop of `uni_hid_parse_input_report`. -/
  fields : ∀ (D : Type) (parseUsage : D → HidGlobals → HidField → Option D) (report : ℕ → UInt8)
    (reportLen : UInt16) (d : D), ∃ r, loop (parseBody parseUsage) (parseRounds descriptor)
      (hidParserInit descriptor .input report reportLen, d) = some r

theorem rounds_suffice (descriptor : Bytes) : RoundsSuffice descriptor := by
  refine ⟨?_, ?_, ?_⟩
  · intro it h hstate
    exact exists_loop_findNextUsageBody (wellFormed_of_reaches h).1 hstate
  · intro p h
    obtain ⟨hwf, hdesc, hwork⟩ := wellFormed_of_reaches h
    cases hready : p.haveReportUsageReady with
    | true =>
      obtain ⟨m, hm⟩ : ∃ m, parseRounds p.usageIterator.descriptor = m + 1 := ⟨_, rfl⟩
      rw [hm]
      exact ⟨some p, loop_done (if_pos hready)⟩
    | false =>
      obtain ⟨n, hend, hn⟩ : ∃ n, EndsAfter usageNext n p.usageIterator ∧
          n ≤ p.usageIterator.work := by
        rcases usages_end_from hwf with ⟨as, has, hlen⟩ | ⟨n, hfail, hn⟩
        · exact ⟨_, Or.inl ⟨as, has, rfl⟩, hlen⟩
        · exact ⟨n, Or.inr hfail, hn⟩
      obtain ⟨r, hr⟩ := exists_loop_hasMoreBody hready hend
      exact ⟨r, loop_mono hr (by rw [hdesc]; omega)⟩
  · intro D parseUsage report reportLen d
    have hwf := wellFormed_usageIteratorInit descriptor .input
    rcases usages_end descriptor .input with ⟨as, has, hlen⟩ | ⟨n, hfail, hn, -⟩
    · exact ⟨_, loop_parseBody_yields has rfl ⟨rfl, hwf, hlen⟩ hlen⟩
    · exact ⟨_, loop_parseBody_fails hfail rfl ⟨rfl, hwf, hn⟩ hn⟩

/-- Whatever the device, its parser and its descriptor, no loop runs out of rounds, and an input report is
worked on to its end, the fields of the report being handed over in the order of the descriptor, or the
walk over the items of the descriptor comes to one with a reserved tag and a parser that wants the fields
does not get through the report. -/
theorem input_report_ends {D : Type} (rp : ReportParser D) (descriptor : D → Bytes) (d : D)
    (report : ℕ → UInt8) (reportLen : UInt16) :
    let d' := rp.prepared d report reportLen
    RoundsSuffice (descriptor d') ∧
    ((∃ as, Yields usageNext (usageIteratorInit (descriptor d') .input) as ∧
      uniHidParseInputReport rp descriptor d report reportLen =
        rp.parseUsage.elim (some d') fun f =>
          (reportFields as report reportLen).foldlM (fun d x => f d x.1 x.2) d') ∨
    (MeetsReserved (descriptor d') ∧
      uniHidParseInputReport rp descriptor d report reportLen =
        rp.parseUsage.elim (some d') fun _ => none)) := by
  intro d'
  refine ⟨rounds_suffice _, ?_⟩
  have hstart : uniHidParseInputReport rp descriptor d report reportLen =
      rp.parseUsage.elim (some d') fun f => parseFields f (descriptor d') report reportLen d' := rfl
  rw [hstart]
  rcases parseFields_eq (descriptor d') with ⟨as, has, heq⟩ | ⟨hitem, hnone⟩
  · refine Or.inl ⟨as, has, ?_⟩
    cases rp.parseUsage with
    | none => rfl
    | some f => exact heq D f report reportLen d'
  · refine Or.inr ⟨hitem, ?_⟩
    cases rp.parseUsage with
    | none => rfl
    | some f => exact hnone D f report reportLen d'

end Parser

/-! ## A sample -/

/-- The report with the id 7 has two signed axes of eleven bits and three buttons. -/
def padDescriptor : Bytes :=
  [0x85, 0x07, 0x05, 0x01, 0x09, 0x30, 0x09, 0x31, 0x16, 0x00, 0xfc, 0x26, 0xff, 0x03, 0x75, 0x0b,
    0x95, 0x02, 0x81, 0x02, 0x05, 0x09, 0x19, 0x01, 0x29, 0x03, 0x15, 0x00, 0x25, 0x01, 0x75, 0x01,
    0x95, 0x03, 0x81, 0x02]

def padAxis (bitPos usage : UInt16) : HidUsageItem × HidGlobals :=
  (⟨7, bitPos, 1, usage, 11, ⟨2, 2, .main, 8, 1⟩, -1024⟩, ⟨-1024, 1023, 1, 11, 2, 7⟩)

def padButton (bitPos usage : UInt16) : HidUsageItem × HidGlobals :=
  (⟨7, bitPos, 9, usage, 1, ⟨2, 2, .main, 8, 1⟩, 0⟩, ⟨0, 1, 9, 1, 3, 7⟩)

def padUsages : List (HidUsageItem × HidGlobals) :=
  [padAxis 0 0x30, padAxis 11 0x31, padButton 22 1, padButton 23 2, padButton 24 3]

theorem yields_pad :
    @Yields _ _ (@usageNext shiftModulo) (usageIteratorInit padDescriptor .input) padUsages := by
  refine @yields_of_collect _ _ _ _ _ 7 ?_
  decide

end EdnaDrone
