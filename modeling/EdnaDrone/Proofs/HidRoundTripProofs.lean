import EdnaDrone.Proofs.HidFieldProofs

/-!
# Packing a report and reading it

A device packs the values of its fields into the bits that the descriptor gives them. The parser reads
exactly these values, negative ones included, whatever the bytes behind the report are.
-/

namespace EdnaDrone

open Lib

section Parser

variable {report : ℕ → UInt8} {reportLen : UInt16} {item : HidUsageItem}

/-- What the bits of a variable field stand for. -/
def HidUsageItem.ofBits (item : HidUsageItem) (bits : ℕ) : ℤ :=
  if item.globalLogicalMinimum < 0 ∧ 2 ^ (item.size.toNat - 1) ≤ bits then
    (bits : ℤ) - 2 ^ item.size.toNat
  else bits

/-- The bits of a value. -/
def HidUsageItem.toBits (item : HidUsageItem) (v : ℤ) : ℕ := (v % 2 ^ item.size.toNat).toNat

/-- The values that a field can hold: signed ones if its logical minimum is negative. -/
def HidUsageItem.Holds (item : HidUsageItem) (v : ℤ) : Prop :=
  if item.globalLogicalMinimum < 0 then
    -2 ^ (item.size.toNat - 1) ≤ v ∧ v < 2 ^ (item.size.toNat - 1)
  else 0 ≤ v ∧ v < 2 ^ item.size.toNat

theorem toBits_lt (v : ℤ) : item.toBits v < 2 ^ item.size.toNat := by
  have hpos : (0 : ℤ) < 2 ^ item.size.toNat := by positivity
  have hlt := Int.emod_lt_of_pos v hpos
  unfold HidUsageItem.toBits
  zify
  rw [Int.toNat_of_nonneg (Int.emod_nonneg _ hpos.ne')]
  exact hlt

/-- The bits of a value stand for the value. -/
theorem ofBits_toBits {v : ℤ} (hsize : 0 < item.size.toNat) (h : item.Holds v) :
    item.ofBits (item.toBits v) = v := by
  have hpow : (2 : ℤ) ^ item.size.toNat = 2 * 2 ^ (item.size.toNat - 1) := by
    rw [← pow_succ']
    congr 1
    omega
  have hpos : (0 : ℤ) < 2 ^ (item.size.toNat - 1) := by positivity
  have hcast : (item.toBits v : ℤ) = v % 2 ^ item.size.toNat :=
    Int.toNat_of_nonneg (Int.emod_nonneg _ (by omega))
  have hle : 2 ^ (item.size.toNat - 1) ≤ item.toBits v ↔
      (2 : ℤ) ^ (item.size.toNat - 1) ≤ v % 2 ^ item.size.toNat := by
    rw [← hcast]
    exact_mod_cast Iff.rfl
  unfold HidUsageItem.Holds at h
  unfold HidUsageItem.ofBits
  simp only [hle, hcast]
  by_cases hmin : item.globalLogicalMinimum < 0
  · rw [if_pos hmin] at h
    rcases lt_or_ge v 0 with hneg | hnonneg
    · have hmod : v % 2 ^ item.size.toNat = v + 2 ^ item.size.toNat := by
        rw [← Int.add_emod_right, Int.emod_eq_of_lt (by omega) (by omega)]
      rw [hmod, if_pos ⟨hmin, by omega⟩]
      omega
    · have hmod : v % 2 ^ item.size.toNat = v := Int.emod_eq_of_lt hnonneg (by omega)
      rw [hmod, if_neg (by rintro ⟨-, hge⟩; omega)]
  · rw [if_neg hmin] at h
    rw [Int.emod_eq_of_lt h.1 h.2, if_neg (fun hc => hmin hc.1)]

/-- A variable field that ends inside the report and spans four bytes at most. -/
structure HidUsageItem.Readable (item : HidUsageItem) (reportLen : UInt16) : Prop where
  isVariable : item.descriptorItem.isVariable = true
  fits : item.Fits reportLen
  size_lt : item.size.toNat < 32
  span : item.startBit.toNat % 8 + item.size.toNat ≤ 32

/-- A field that says `v`. -/
def HidUsageItem.fieldOf (item : HidUsageItem) (v : ℤ) : HidField :=
  ⟨item.usagePage, item.usage, Int32.ofInt v⟩

/-! ## A whole report -/

/-- A field with its value, packed. -/
def HidUsageItem.packed (item : HidUsageItem) (v : ℤ) : Packed :=
  ⟨item.startBit.toNat, item.size.toNat, item.toBits v⟩

/-- The fields of a report with their values, as a device sends them: `lead` is what lies in the `base`
bits before the first field, which is the id of the report if it has one. -/
structure Sent (fields : List ((HidUsageItem × HidGlobals) × ℤ)) (base lead : ℕ) (report : ℕ → UInt8)
    (reportLen : UInt16) : Prop where
  lead_lt : lead < 2 ^ base
  readable : ∀ f ∈ fields, f.1.1.Readable reportLen ∧ f.1.1.Holds f.2
  ascending : Ascending base (fields.map fun f => f.1.1.packed f.2)
  bytes : ofLE (reportBytes report reportLen.toNat) =
    lead + pack (fields.map fun f => f.1.1.packed f.2)

variable {fields : List ((HidUsageItem × HidGlobals) × ℤ)} {base lead : ℕ}

/-- The fields lie one behind the other from bit `base` on. -/
def InOrder : ℕ → List (HidUsageItem × HidGlobals) → Prop
  | _, [] => True
  | base, a :: as => base ≤ a.1.startBit.toNat ∧ InOrder (a.1.startBit.toNat + a.1.size.toNat) as

theorem ascending_packed (h : InOrder base (fields.map Prod.fst)) :
    Ascending base (fields.map fun f => f.1.1.packed f.2) := by
  induction fields generalizing base with
  | nil => exact .nil
  | cons f fs ih => exact .cons h.1 (toBits_lt f.2) (ih h.2)

variable [WideShift]

theorem HidUsageItem.Readable.field (h : item.Readable reportLen) :
    item.field report reportLen = item.fieldOf (item.ofBits
      (bitField (ofLE (reportBytes report reportLen.toNat)) item.startBit.toNat item.size.toNat)) := by
  have hvalue := field_value item report reportLen h.isVariable h.fits.1 h.size_lt h.span h.fits.2
  have hshape : item.field report reportLen =
      ⟨item.usagePage, item.usage, (item.field report reportLen).value⟩ := by
    unfold HidUsageItem.field
    dsimp only
    rw [if_pos h.isVariable]
  unfold HidUsageItem.fieldOf HidUsageItem.ofBits
  rw [hshape, ← hvalue, Int32.ofInt_toInt]

theorem Sent.field (h : Sent fields base lead report reportLen) {f : (HidUsageItem × HidGlobals) × ℤ}
    (hf : f ∈ fields) : f.1.1.field report reportLen = f.1.1.fieldOf f.2 := by
  obtain ⟨hread, hholds⟩ := h.readable f hf
  have hbits := bitField_pack h.ascending h.lead_lt (f.1.1.packed f.2)
    (List.mem_map_of_mem (f := fun f => f.1.1.packed f.2) hf)
  rw [hread.field, h.bytes]
  show f.1.1.fieldOf (f.1.1.ofBits (bitField _ (f.1.1.packed f.2).start (f.1.1.packed f.2).size)) = _
  rw [hbits]
  exact congrArg _ (ofBits_toBits hread.fits.1 hholds)

/-- The fields of the report are the ones that were sent. -/
theorem Sent.reportFields (h : Sent fields base lead report reportLen)
    {as : List (HidUsageItem × HidGlobals)}
    (hof : as.filter (fun a => !a.1.otherReport (report 0)) = fields.map Prod.fst) :
    reportFields as report reportLen = fields.map fun f => (f.1.2, f.1.1.fieldOf f.2) := by
  unfold EdnaDrone.reportFields
  rw [hof, List.map_map]
  refine List.map_congr_left ?_
  intro f hf
  show (f.1.2, f.1.1.field report reportLen) = _
  rw [h.field hf]

/-- A report that a device has packed is read as the values that were packed, in the order of the
descriptor, whatever lies behind the report. -/
theorem report_round_trip {D : Type} (parseUsage : D → HidGlobals → HidField → Option D)
    (descriptor : Bytes) (as : List (HidUsageItem × HidGlobals))
    (has : Yields usageNext (usageIteratorInit descriptor .input) as)
    (fields : List ((HidUsageItem × HidGlobals) × ℤ)) (base lead : ℕ) (report : ℕ → UInt8)
    (reportLen : UInt16) (hsent : Sent fields base lead report reportLen)
    (hof : as.filter (fun a => !a.1.otherReport (report 0)) = fields.map Prod.fst) (d : D) :
    parseFields parseUsage descriptor report reportLen d =
      fields.foldlM (fun d f => parseUsage d f.1.2 (f.1.1.fieldOf f.2)) d := by
  rw [parseFields_of_yields parseUsage has, hsent.reportFields hof, List.foldlM_map]

end Parser

/-- The axes of the pad are at -3 and 700, and the first and the last of its buttons are held down. -/
def padValues : List ((HidUsageItem × HidGlobals) × ℤ) :=
  [(padAxis 0 0x30, -3), (padAxis 11 0x31, 700), (padButton 22 1, 1), (padButton 23 2, 0),
    (padButton 24 3, 1)]

def padReport (i : ℕ) : UInt8 := [0x07, 0xfd, 0xe7, 0x55, 0x01].getD i 0

theorem sent_padReport : Sent padValues 8 7 padReport 5 := by
  refine ⟨by decide, ?_, ?_, by decide⟩
  · simp only [padValues, List.forall_mem_cons, List.not_mem_nil, false_implies, implies_true, and_true]
    refine ⟨?_, ?_, ?_, ?_, ?_⟩
    all_goals exact ⟨⟨by decide, ⟨by decide, by decide⟩, by decide, by decide⟩, by decide, by decide⟩
  · exact ascending_packed ⟨by decide, by decide, by decide, by decide, by decide, trivial⟩

theorem report_round_trip_pad :
    letI := shiftModulo
    parseFields (fun d _ f => some (f.value :: d)) padDescriptor padReport 5 [] =
      some [1, 0, 1, 700, -3] := by
  let _ := shiftModulo
  exact report_round_trip _ _ _ yields_pad _ _ _ _ _ sent_padReport rfl []

end EdnaDrone
