import EdnaDrone.Proofs.InterlockProofs
import EdnaDrone.Proofs.XboxUsageProofs
import Mathlib

/-!
# What an Xbox report says

A report of the pad says where the sticks, triggers and buttons are, and it is read so whatever its bytes
are. The reports of the other ids say nothing about the pad, and since each report starts from a released
pad, they are read as one with nothing held down.
-/

namespace EdnaDrone

open Lib

/-- The pad: sticks and triggers as they are reported, the hat counted from 1 at the top, and the buttons
by their usage, the first one being usage 1. -/
structure XboxPad where
  x : ℕ
  y : ℕ
  z : ℕ
  rz : ℕ
  brake : ℕ
  accelerator : ℕ
  hat : ℕ
  button : Fin 15 → Bool
  back : Bool

structure XboxPad.Valid (p : XboxPad) : Prop where
  sticks : p.x < 65536 ∧ p.y < 65536 ∧ p.z < 65536 ∧ p.rz < 65536
  triggers : p.brake < 1024 ∧ p.accelerator < 1024
  hat : p.hat < 16

/-- Some masks together. -/
def masks {α : Type} [OfNat α 0] [OrOp α] (bits : List (Bool × α)) : α :=
  bits.foldl (fun acc b => if b.1 then acc ||| b.2 else acc) 0

/-- The pad as bluepad32 keeps it. -/
def XboxPad.gamepad (p : XboxPad) : FullGamepad where
  axisX := axisPosition 65536 p.x
  axisY := axisPosition 65536 p.y
  axisRx := axisPosition 65536 p.z
  axisRy := axisPosition 65536 p.rz
  brake := Int32.ofNat p.brake
  throttle := Int32.ofNat p.accelerator
  dpad := if 1 ≤ p.hat ∧ p.hat ≤ 8 then hatToDpad (UInt8.ofNat (p.hat - 1)) else 0
  buttons := masks
    [(decide (32 ≤ p.brake), buttonTriggerL), (decide (32 ≤ p.accelerator), buttonTriggerR),
      (p.button 0, buttonA), (p.button 1, buttonB), (p.button 3, buttonX), (p.button 4, buttonY),
      (p.button 6, buttonShoulderL), (p.button 7, buttonShoulderR), (p.button 13, buttonThumbL),
      (p.button 14, buttonThumbR)]
  miscButtons := masks
    [(p.button 10, miscButtonSelect), (p.button 11, miscButtonStart), (p.button 12, miscButtonSystem),
      (p.back, miscButtonSelect)]

def XboxPad.pressesX (p : XboxPad) : Bool := p.button 3

def XboxPad.pressesY (p : XboxPad) : Bool := p.button 4

/-- The number with some bits, the least significant one first. -/
def bitsValue : List Bool → ℕ
  | [] => 0
  | b :: bs => b.toNat + 2 * bitsValue bs

/-- The pad as the controller reports it: id 1, the sticks and triggers with two bytes each, the hat, the
buttons from usage 1 on and the back button. -/
def XboxPad.report (p : XboxPad) : Bytes :=
  1 :: (toLE 2 p.x ++ toLE 2 p.y ++ toLE 2 p.z ++ toLE 2 p.rz ++ toLE 2 p.brake ++
    toLE 2 p.accelerator ++ [UInt8.ofNat p.hat] ++ toLE 2 (bitsValue (List.ofFn p.button)) ++
    [p.back.toUInt8])

/-- A pad with all sticks at their ends and X held down. -/
def xboxPadCorner : XboxPad := ⟨65535, 65535, 65535, 65535, 0, 0, 0, fun i => decide (i = 3), false⟩

/-- Its report. -/
def cornerReport (i : ℕ) : UInt8 := xboxPadCorner.report.getD i 0

/-! ## The rows of the descriptor -/

def padRow (i : ℕ) : HidUsageItem × HidGlobals := xboxPadRows.getD i xboxSystemRow

theorem padRow_mem (i : ℕ) : padRow i ∈ xboxPadRows ++ [xboxSystemRow] := by
  rw [padRow, List.mem_append, List.mem_singleton, List.getD_eq_getElem?_getD]
  cases h : xboxPadRows[i]? with
  | none => exact Or.inr rfl
  | some a => exact Or.inl (List.mem_of_getElem? h)

theorem padRow_unsigned (i : ℕ) : (padRow i).1.descriptorItem.isVariable = true ∧
    (padRow i).1.size.toNat < 32 ∧ ¬ (padRow i).1.globalLogicalMinimum < 0 := by
  have hall : ∀ a ∈ xboxPadRows ++ [xboxSystemRow], a.1.descriptorItem.isVariable = true ∧
      a.1.size.toNat < 32 ∧ ¬ a.1.globalLogicalMinimum < 0 := by decide
  exact hall _ (padRow_mem i)

theorem two_pow_size_le (i : ℕ) : 2 ^ (padRow i).1.size.toNat ≤ 2 ^ 31 := by
  have hsize := (padRow_unsigned i).2.1
  exact Nat.pow_le_pow_right (by omega) (by omega)

theorem otherReport_pad (report : ℕ → UInt8) (hid : report 0 ≠ 1) :
    ∀ a ∈ xboxPadRows, a.1.otherReport (report 0) = true := by
  intro a ha
  have hone : ∀ a ∈ xboxPadRows, a.1.reportId = 1 := by decide
  have hne : (report 0).toUInt16 ≠ 1 := by
    intro hc
    have hnat := congrArg UInt16.toNat hc
    rw [UInt8.toNat_toUInt16] at hnat
    exact hid (UInt8.toNat_inj.1 hnat)
  unfold HidUsageItem.otherReport
  rw [hone a ha, Bool.and_eq_true, decide_eq_true_iff, decide_eq_true_iff]
  exact ⟨by decide, hne.symm⟩

/-! ## Buttons, triggers and sticks -/

def FullGamepad.pressIf (gp : FullGamepad) (mask : UInt16) (b : Bool) : FullGamepad :=
  { gp with buttons := if b then gp.buttons ||| mask else gp.buttons }

def FullGamepad.pressMiscIf (gp : FullGamepad) (mask : UInt8) (b : Bool) : FullGamepad :=
  { gp with miscButtons := if b then gp.miscButtons ||| mask else gp.miscButtons }

theorem press_eq (gp : FullGamepad) (mask : UInt16) (v : Int32) :
    gp.press mask v = gp.pressIf mask (decide (v ≠ 0)) := by
  unfold FullGamepad.press FullGamepad.pressIf
  by_cases hv : v ≠ 0
  · rw [if_pos hv, decide_eq_true hv, if_pos rfl]
  · rw [if_neg hv, decide_eq_false hv]
    rfl

theorem pressMisc_eq (gp : FullGamepad) (mask : UInt8) (v : Int32) :
    gp.pressMisc mask v = gp.pressMiscIf mask (decide (v ≠ 0)) := by
  unfold FullGamepad.pressMisc FullGamepad.pressMiscIf
  by_cases hv : v ≠ 0
  · rw [if_pos hv, decide_eq_true hv, if_pos rfl]
  · rw [if_neg hv, decide_eq_false hv]
    rfl

theorem ofInt_natCast_ne_zero {n : ℕ} (h : n < 2 ^ 31) :
    decide (Int32.ofInt (n : ℤ) ≠ 0) = decide (n ≠ 0) := by
  have hint : (Int32.ofInt (n : ℤ)).toInt = n := Int32.toInt_ofInt_of_le (by omega) (by omega)
  congr 1
  rw [Ne, ← Int32.toInt_inj, hint]
  exact propext (not_congr Int.natCast_eq_zero)

theorem ofInt_le_natCast {v : ℕ} (hv : v < 1024) :
    triggerButtonThreshold ≤ Int32.ofNat v ↔ 32 ≤ v := by
  have hint : (Int32.ofNat v).toInt = v := Int32.toInt_ofInt_of_le (n := v) (by omega) (by omega)
  have h32 : triggerButtonThreshold.toInt = 32 := rfl
  rw [Int32.le_iff_toInt_le, hint, h32]
  omega

theorem pullTrigger_eq (gp : FullGamepad) (mask : UInt16) {v : ℕ} (hv : v < 1024) :
    gp.pullTrigger mask (Int32.ofNat v) = gp.pressIf mask (decide (32 ≤ v)) := by
  unfold FullGamepad.pullTrigger FullGamepad.pressIf
  by_cases h : 32 ≤ v
  · rw [if_pos ((ofInt_le_natCast hv).2 h), decide_eq_true h, if_pos rfl]
  · rw [if_neg fun hc => h ((ofInt_le_natCast hv).1 hc), decide_eq_false h]
    rfl

theorem XboxPad.Valid.inRange {p : XboxPad} (h : p.Valid) : p.gamepad.toUniGamepad.InRange := by
  obtain ⟨hx, hy, hz, hrz⟩ := h.sticks
  have hbounds : ∀ n : ℕ, n < 65536 → -512 ≤ axisPosition 65536 n ∧ axisPosition 65536 n ≤ 511 :=
    fun n hn => axisPosition_bounds (by omega) (by omega) (by omega)
  exact ⟨hbounds _ hx, hbounds _ hy, hbounds _ hz, hbounds _ hrz⟩

theorem inRange_released : zeroGamepad.toUniGamepad.InRange :=
  ⟨by decide, by decide, by decide, by decide⟩

section Parser

variable [WideShift] {report : ℕ → UInt8} {reportLen : UInt16} {item : HidUsageItem} {d : XboxDevice}

/-! ## The values of a report -/

/-- An unsigned field has its number of bits, also where it ends behind the report. -/
theorem field_unsigned (hvar : item.descriptorItem.isVariable = true) (hsize : item.size.toNat < 32)
    (hmin : ¬ item.globalLogicalMinimum < 0) (report : ℕ → UInt8) (reportLen : UInt16) :
    ∃ n : ℕ, n < 2 ^ item.size.toNat ∧ item.field report reportLen = item.fieldOf n := by
  let bits := unsignedValue report reportLen item.startBit item.size
  have hlt : bits.toNat < 2 ^ item.size.toNat := by
    show (unsignedValue report reportLen item.startBit item.size).toNat < _
    unfold unsignedValue
    dsimp only
    rw [UInt32.toNat_and, toNat_mask hsize, Nat.and_two_pow_sub_one_eq_mod]
    exact Nat.mod_lt _ (Nat.two_pow_pos _)
  have hpow : 2 ^ item.size.toNat ≤ 2 ^ 31 := Nat.pow_le_pow_right (by omega) (by omega)
  have hint : bits.toInt32.toInt = bits.toNat := by
    rw [toInt_toInt32, if_pos (by omega)]
  refine ⟨bits.toNat, hlt, ?_⟩
  unfold HidUsageItem.field HidUsageItem.fieldOf
  dsimp only
  rw [if_pos hvar, decide_eq_false hmin, Bool.false_and, if_neg (by decide), ← hint, Int32.ofInt_toInt]

/-- What a row of the pad says in a report. -/
def rowValue (report : ℕ → UInt8) (reportLen : UInt16) (i : ℕ) : ℕ :=
  ((padRow i).1.field report reportLen).value.toInt.toNat

/-- The pad that a report says. -/
def XboxPad.ofReport (report : ℕ → UInt8) (reportLen : UInt16) : XboxPad :=
  let v := rowValue report reportLen
  { x := v 0
    y := v 1
    z := v 2
    rz := v 3
    brake := v 4
    accelerator := v 5
    hat := v 6
    button := fun i => decide (v (7 + i) ≠ 0)
    back := decide (v 22 ≠ 0) }

/-- A row of the pad, read from a report of any length. -/
theorem rowValue_spec (report : ℕ → UInt8) (reportLen : UInt16) (i : ℕ) :
    (padRow i).1.field report reportLen = (padRow i).1.fieldOf (rowValue report reportLen i) ∧
      rowValue report reportLen i < 2 ^ (padRow i).1.size.toNat := by
  obtain ⟨hvar, hsize, hmin⟩ := padRow_unsigned i
  obtain ⟨n, hn, hfield⟩ := field_unsigned hvar hsize hmin report reportLen
  have hpow := two_pow_size_le i
  have hvalue : rowValue report reportLen i = n := by
    unfold rowValue
    rw [hfield]
    show (Int32.ofInt n).toInt.toNat = n
    rw [Int32.toInt_ofInt_of_le (by omega) (by omega), Int.toNat_natCast]
  rw [hvalue]
  exact ⟨hfield, hn⟩

theorem valid_ofReport : (XboxPad.ofReport report reportLen).Valid := by
  have h := fun i => (rowValue_spec report reportLen i).2
  exact ⟨⟨h 0, h 1, h 2, h 3⟩, ⟨h 4, h 5⟩, h 6⟩

/-! ## The fold over the fields -/

/-- A field with a value changes the pad by `f`. -/
def PadStep (a : HidUsageItem × HidGlobals) (v : ℤ) (f : FullGamepad → FullGamepad) : Prop :=
  ∀ d : XboxDevice, d.version ≠ .v31 →
    xboxoneParseUsage d a.2 (a.1.fieldOf v) = some (d.withGamepad (f d.gamepad))

theorem foldlM_padSteps {xs : List ((HidUsageItem × HidGlobals) × ℤ)}
    {fs : List (FullGamepad → FullGamepad)} (h : List.Forall₂ (fun x f => PadStep x.1 x.2 f) xs fs)
    (hd : d.version ≠ .v31) :
    xs.foldlM (fun d x => xboxoneParseUsage d x.1.2 (x.1.1.fieldOf x.2)) d =
      some (d.withGamepad (fs.foldl (fun gp f => f gp) d.gamepad)) := by
  induction h generalizing d with
  | nil => rfl
  | cons hstep _ ih =>
    rw [List.foldlM_cons, hstep d hd]
    exact ih (d := d.withGamepad _) hd

/-- The steps of the fields of the pad, in the order of the descriptor. -/
def XboxPad.steps (p : XboxPad) : List (FullGamepad → FullGamepad) :=
  [fun gp => { gp with axisX := axisPosition 65536 p.x },
    fun gp => { gp with axisY := axisPosition 65536 p.y },
    fun gp => { gp with axisRx := axisPosition 65536 p.z },
    fun gp => { gp with axisRy := axisPosition 65536 p.rz },
    fun gp => { gp with brake := Int32.ofNat p.brake }.pressIf buttonTriggerL (decide (32 ≤ p.brake)),
    fun gp => { gp with throttle := Int32.ofNat p.accelerator }.pressIf buttonTriggerR
      (decide (32 ≤ p.accelerator)),
    fun gp => { gp with
      dpad := if 1 ≤ p.hat ∧ p.hat ≤ 8 then hatToDpad (UInt8.ofNat (p.hat - 1)) else 0 },
    fun gp => gp.pressIf buttonA (p.button 0), fun gp => gp.pressIf buttonB (p.button 1), id,
    fun gp => gp.pressIf buttonX (p.button 3), fun gp => gp.pressIf buttonY (p.button 4), id,
    fun gp => gp.pressIf buttonShoulderL (p.button 6), fun gp => gp.pressIf buttonShoulderR (p.button 7),
    id, id, fun gp => gp.pressMiscIf miscButtonSelect (p.button 10),
    fun gp => gp.pressMiscIf miscButtonStart (p.button 11),
    fun gp => gp.pressMiscIf miscButtonSystem (p.button 12),
    fun gp => gp.pressIf buttonThumbL (p.button 13), fun gp => gp.pressIf buttonThumbR (p.button 14),
    fun gp => gp.pressMiscIf miscButtonSelect p.back]

/-- The parser on a version that is not 3.1. -/
theorem parseUsage_v4 (hd : d.version ≠ .v31) (g : HidGlobals) (f : HidField) :
    xboxoneParseUsage d g f = parseUsageFirmwareV4V5 d g f := if_neg hd

theorem padStep_axis (set : FullGamepad → ℤ → FullGamepad) {a : HidUsageItem × HidGlobals} {v : ℕ}
    (hg : a.2.IsAxis 65536) (hmin : a.2.logicalMinimum.toInt = 0) (hv : v < 65536)
    (hparse : ∀ d : XboxDevice, parseUsageFirmwareV4V5 d a.2 (a.1.fieldOf v) =
      (processAxis a.2 (Int32.ofInt v)).map fun x => d.withGamepad (set d.gamepad x.toInt)) :
    PadStep a v fun gp => set gp (axisPosition 65536 v) := by
  intro d hd
  have hint : (Int32.ofInt (v : ℤ)).toInt = v := Int32.toInt_ofInt_of_le (by omega) (by omega)
  have hmax := hg.count
  obtain ⟨x, hx, hval⟩ := hg.process (v := Int32.ofInt v) ⟨by omega, by omega⟩
  rw [parseUsage_v4 hd, hparse, hx, Option.map_some, hval, hint, hmin, Int.sub_zero]

theorem padStep_press {a : HidUsageItem × HidGlobals} {mask : UInt16} {v : ℕ} (hv : v < 2 ^ 31)
    (hparse : ∀ d : XboxDevice, parseUsageFirmwareV4V5 d a.2 (a.1.fieldOf v) =
      some (d.withGamepad (d.gamepad.press mask (Int32.ofInt v)))) :
    PadStep a v fun gp => gp.pressIf mask (decide (v ≠ 0)) := by
  intro d hd
  rw [parseUsage_v4 hd, hparse, press_eq, ofInt_natCast_ne_zero hv]

theorem padStep_pressMisc {a : HidUsageItem × HidGlobals} {mask : UInt8} {v : ℕ} (hv : v < 2 ^ 31)
    (hparse : ∀ d : XboxDevice, parseUsageFirmwareV4V5 d a.2 (a.1.fieldOf v) =
      some (d.withGamepad (d.gamepad.pressMisc mask (Int32.ofInt v)))) :
    PadStep a v fun gp => gp.pressMiscIf mask (decide (v ≠ 0)) := by
  intro d hd
  rw [parseUsage_v4 hd, hparse, pressMisc_eq, ofInt_natCast_ne_zero hv]

theorem padStep_unused {a : HidUsageItem × HidGlobals} {v : ℕ}
    (hparse : ∀ d : XboxDevice, parseUsageFirmwareV4V5 d a.2 (a.1.fieldOf v) = some d) :
    PadStep a v id := by
  intro d hd
  rw [parseUsage_v4 hd, hparse]
  rfl

/-- A trigger has as many values as the pedals are scaled to. -/
theorem processPedal_trigger {g : HidGlobals} (hg : g.IsAxis 1024) {v : ℕ} (hv : v < 1024) :
    processPedal g (Int32.ofInt v) = some (Int32.ofNat v) := by
  have hrange : g.range = 1024 := Int32.toInt_inj.1 hg.range
  have hscaled : (Int32.ofInt (v : ℤ)).toUInt32 * axisNormalizeRange.toUInt32 /
      (1024 : Int32).toUInt32 = UInt32.ofNat v := by
    have hof : (Int32.ofInt (v : ℤ)).toUInt32 = UInt32.ofNat v := rfl
    have hscale : axisNormalizeRange.toUInt32 = 1024 := rfl
    have hcount : (1024 : Int32).toUInt32 = 1024 := rfl
    have hn : (UInt32.ofNat v).toNat = v := UInt32.toNat_ofNat_of_lt' (by show v < 4294967296; omega)
    have h1024 : (1024 : UInt32).toNat = 1024 := rfl
    rw [hof, hscale, hcount, ← UInt32.toNat_inj, UInt32.toNat_div, UInt32.toNat_mul, hn, h1024]
    omega
  unfold processPedal
  dsimp only
  rw [hrange, if_neg (by decide), hscaled]
  rfl

theorem padStep_pedal (set : FullGamepad → Int32 → FullGamepad) {a : HidUsageItem × HidGlobals}
    {mask : UInt16} {v : ℕ} (hg : a.2.IsAxis 1024) (hv : v < 1024)
    (hparse : ∀ d : XboxDevice, parseUsageFirmwareV4V5 d a.2 (a.1.fieldOf v) =
      (processPedal a.2 (Int32.ofInt v)).map fun x =>
        d.withGamepad ((set d.gamepad x).pullTrigger mask x)) :
    PadStep a v fun gp => (set gp (Int32.ofNat v)).pressIf mask (decide (32 ≤ v)) := by
  intro d hd
  rw [parseUsage_v4 hd, hparse, processPedal_trigger hg hv, Option.map_some, pullTrigger_eq _ _ hv]

theorem padStep_hat {a : HidUsageItem × HidGlobals} {v : ℕ}
    (hg : a.2.logicalMinimum = 1 ∧ a.2.logicalMaximum = 8) (hv : v < 16)
    (hparse : ∀ d : XboxDevice, parseUsageFirmwareV4V5 d a.2 (a.1.fieldOf v) =
      some (d.withGamepad { d.gamepad with dpad := hatToDpad (processHat a.2 (Int32.ofInt v)) })) :
    PadStep a v fun gp =>
      { gp with dpad := if 1 ≤ v ∧ v ≤ 8 then hatToDpad (UInt8.ofNat (v - 1)) else 0 } := by
  have hhat : ∀ v : ℕ, v < 16 → hatToDpad (processHat a.2 (Int32.ofInt v)) =
      if 1 ≤ v ∧ v ≤ 8 then hatToDpad (UInt8.ofNat (v - 1)) else 0 := by
    unfold processHat
    rw [hg.1, hg.2]
    decide
  intro d hd
  rw [parseUsage_v4 hd, hparse, hhat v hv]

/-- The axes are those of the sticks, and then come the triggers and the hat. -/
theorem padRows_axes : (∀ i < 4, (padRow i).2.IsAxis 65536 ∧
      (padRow i).2.logicalMinimum.toInt = 0) ∧
    ∀ i < 6, 4 ≤ i → (padRow i).2.IsAxis 1024 := by
  constructor
  · intro i hi
    interval_cases i <;> exact ⟨isAxis_of_ne (by decide) (by decide) (by decide) (by decide), by decide⟩
  · intro i hi hle
    interval_cases i <;> exact isAxis_of_ne (by decide) (by decide) (by decide) (by decide)

/-- Each field of the pad takes its step. -/
theorem padSteps (report : ℕ → UInt8) (reportLen : UInt16) :
    List.Forall₂ (fun x f => PadStep x.1 x.2 f)
      ((List.range 23).map fun i => (padRow i, (rowValue report reportLen i : ℤ)))
      (XboxPad.ofReport report reportLen).steps := by
  let v := rowValue report reportLen
  have hv : ∀ i, v i < 2 ^ (padRow i).1.size.toNat := fun i => (rowValue_spec report reportLen i).2
  have hbit : ∀ i, v i < 2 ^ 31 := fun i => (hv i).trans_le (two_pow_size_le i)
  have haxis : ∀ i < 4, ∀ set : FullGamepad → ℤ → FullGamepad, v i < 65536 →
      (∀ d : XboxDevice, parseUsageFirmwareV4V5 d (padRow i).2 ((padRow i).1.fieldOf (v i)) =
        (processAxis (padRow i).2 (Int32.ofInt (v i))).map
          fun x => d.withGamepad (set d.gamepad x.toInt)) →
      PadStep (padRow i) (v i) fun gp => set gp (axisPosition 65536 (v i)) :=
    fun i hi set => padStep_axis set (padRows_axes.1 i hi).1 (padRows_axes.1 i hi).2
  have hpedal : ∀ i < 6, 4 ≤ i → ∀ (set : FullGamepad → Int32 → FullGamepad) (mask : UInt16),
      v i < 1024 →
      (∀ d : XboxDevice, parseUsageFirmwareV4V5 d (padRow i).2 ((padRow i).1.fieldOf (v i)) =
        (processPedal (padRow i).2 (Int32.ofInt (v i))).map
          fun x => d.withGamepad ((set d.gamepad x).pullTrigger mask x)) →
      PadStep (padRow i) (v i) fun gp =>
        (set gp (Int32.ofNat (v i))).pressIf mask (decide (32 ≤ v i)) :=
    fun i hi hle set mask => padStep_pedal set (padRows_axes.2 i hi hle)
  have hpress : ∀ i mask, (∀ d : XboxDevice,
      parseUsageFirmwareV4V5 d (padRow i).2 ((padRow i).1.fieldOf (v i)) =
        some (d.withGamepad (d.gamepad.press mask (Int32.ofInt (v i))))) →
      PadStep (padRow i) (v i) fun gp => gp.pressIf mask (decide (v i ≠ 0)) :=
    fun i mask => padStep_press (hbit i)
  have hmisc : ∀ i mask, (∀ d : XboxDevice,
      parseUsageFirmwareV4V5 d (padRow i).2 ((padRow i).1.fieldOf (v i)) =
        some (d.withGamepad (d.gamepad.pressMisc mask (Int32.ofInt (v i))))) →
      PadStep (padRow i) (v i) fun gp => gp.pressMiscIf mask (decide (v i ≠ 0)) :=
    fun i mask => padStep_pressMisc (hbit i)
  refine .cons (haxis 0 (by omega) (fun gp x => { gp with axisX := x }) (hv 0)
    fun _ => Option.map_map _ _ _) ?_
  refine .cons (haxis 1 (by omega) (fun gp x => { gp with axisY := x }) (hv 1)
    fun _ => Option.map_map _ _ _) ?_
  refine .cons (haxis 2 (by omega) (fun gp x => { gp with axisRx := x }) (hv 2) fun _ => rfl) ?_
  refine .cons (haxis 3 (by omega) (fun gp x => { gp with axisRy := x }) (hv 3) fun _ => rfl) ?_
  refine .cons (hpedal 4 (by omega) (by omega) (fun gp x => { gp with brake := x }) _ (hv 4)
    fun _ => rfl) ?_
  refine .cons (hpedal 5 (by omega) (by omega) (fun gp x => { gp with throttle := x }) _ (hv 5)
    fun _ => rfl) ?_
  refine .cons (padStep_hat ⟨rfl, rfl⟩ (hv 6) fun _ => rfl) ?_
  refine .cons (hpress 7 _ fun _ => rfl) ?_
  refine .cons (hpress 8 _ fun _ => rfl) ?_
  refine .cons (padStep_unused fun _ => rfl) ?_
  refine .cons (hpress 10 _ fun _ => rfl) ?_
  refine .cons (hpress 11 _ fun _ => rfl) ?_
  refine .cons (padStep_unused fun _ => rfl) ?_
  refine .cons (hpress 13 _ fun _ => rfl) ?_
  refine .cons (hpress 14 _ fun _ => rfl) ?_
  refine .cons (padStep_unused fun _ => rfl) ?_
  refine .cons (padStep_unused fun _ => rfl) ?_
  refine .cons (hmisc 17 _ fun _ => rfl) ?_
  refine .cons (hmisc 18 _ fun _ => rfl) ?_
  refine .cons (hmisc 19 _ fun _ => rfl) ?_
  refine .cons (hpress 20 _ fun _ => rfl) ?_
  refine .cons (hpress 21 _ fun _ => rfl) ?_
  exact .cons (hmisc 22 _ fun _ => rfl) .nil

/-! ## Whole reports -/

theorem uniHidParseInputReport_callbacks {D : Type} (init : D → D)
    (f : D → HidGlobals → HidField → Option D) (descriptor : D → Bytes) (d : D) (report : ℕ → UInt8)
    (reportLen : UInt16) :
    uniHidParseInputReport ⟨some init, none, some f⟩ descriptor d report reportLen =
      parseFields f (descriptor (init d)) report reportLen (init d) := by
  unfold uniHidParseInputReport
  rw [Option.elim_some, Option.elim_none, Option.elim_some]

theorem xboxParse_eq (hdesc : d.hidDescriptor = xboxHidDescriptor48Fw) (report : ℕ → UInt8)
    (reportLen : UInt16) :
    xboxParse d report reportLen = (reportFields xboxUsages report reportLen).foldlM
      (fun d x => xboxoneParseUsage d x.1 x.2) (xboxoneInitReport d) := by
  have hinit : (xboxoneInitReport d).hidDescriptor = xboxHidDescriptor48Fw := hdesc
  unfold xboxParse xboxoneReportParser
  rw [uniHidParseInputReport_callbacks, hinit]
  exact parseFields_of_yields _ yields_xboxUsages _ _ _

/-- A report of the pad. -/
theorem xboxParse_pad (hdesc : d.hidDescriptor = xboxHidDescriptor48Fw) (hd : d.version ≠ .v31)
    (hid : report 0 = 1) :
    xboxParse d report reportLen =
      some ((xboxoneInitReport d).withGamepad (XboxPad.ofReport report reportLen).gamepad) := by
  have hrows : xboxUsages.filter (fun a => !a.1.otherReport 1) = (List.range 23).map padRow := rfl
  have hfields : reportFields xboxUsages report reportLen =
      ((List.range 23).map fun i => (padRow i, (rowValue report reportLen i : ℤ))).map
        fun x => (x.1.2, x.1.1.fieldOf x.2) := by
    unfold reportFields
    rw [hid, hrows, List.map_map, List.map_map]
    refine List.map_congr_left ?_
    intro i _
    show ((padRow i).2, (padRow i).1.field report reportLen) = _
    rw [(rowValue_spec report reportLen i).1]
    rfl
  rw [xboxParse_eq hdesc, hfields, List.foldlM_map]
  exact foldlM_padSteps (d := xboxoneInitReport d) (padSteps report reportLen) hd

theorem foldlM_other {as : List (HidUsageItem × HidGlobals)}
    (h : ∀ a ∈ as, a = xboxSystemRow ∨ a = xboxBatteryRow) (hd : d.version ≠ .v31) :
    ∃ battery, (as.map fun a => (a.2, a.1.field report reportLen)).foldlM
      (fun d x => xboxoneParseUsage d x.1 x.2) d = some { d with battery := battery } := by
  induction as generalizing d with
  | nil => exact ⟨d.battery, rfl⟩
  | cons a as ih =>
    have hrest := fun b hb => h b (List.mem_cons_of_mem _ hb)
    rw [List.map_cons, List.foldlM_cons, parseUsage_v4 hd]
    rcases h a List.mem_cons_self with rfl | rfl
    · exact ih hrest hd
    · obtain ⟨battery, hb⟩ := ih (d := { d with
        battery := (xboxBatteryRow.1.field report reportLen).value.toUInt32.toUInt8 }) hrest hd
      exact ⟨battery, hb⟩

/-- A report with another id says nothing about the pad. -/
theorem xboxParse_other (hdesc : d.hidDescriptor = xboxHidDescriptor48Fw) (hd : d.version ≠ .v31)
    (hid : report 0 ≠ 1) (reportLen : UInt16) :
    ∃ battery, xboxParse d report reportLen =
      some { xboxoneInitReport d with battery := battery } := by
  have hrows : ∀ a ∈ xboxUsages.filter (fun a => !a.1.otherReport (report 0)),
      a = xboxSystemRow ∨ a = xboxBatteryRow := by
    intro a ha
    obtain ⟨hmem, hkeep⟩ := List.mem_filter.1 ha
    rcases List.mem_append.1 hmem with hpad | hrest
    · rw [otherReport_pad report hid a hpad] at hkeep
      cases hkeep
    · simpa using hrest
  rw [xboxParse_eq hdesc]
  exact foldlM_other hrows hd

/-- Whatever its bytes and its length, a report of a 4.8 or 5 gets through the parser and leaves a gamepad
with all axes in range; the device keeps its descriptor and its version. If it is not a report of the pad,
nothing is held down in it. -/
theorem xbox_report_safe (d : XboxDevice) (hdesc : d.hidDescriptor = xboxHidDescriptor48Fw)
    (hd : d.version ≠ .v31) (report : ℕ → UInt8) (reportLen : UInt16) :
    ∃ d', xboxParse d report reportLen = some d' ∧
      (d'.hidDescriptor = d.hidDescriptor ∧ d'.version = d.version ∧ d'.klass = .gamepad) ∧
      d'.gamepad.toUniGamepad.InRange ∧ (report 0 ≠ 1 → d'.gamepad = zeroGamepad) := by
  by_cases hid : report 0 = 1
  · exact ⟨_, xboxParse_pad hdesc hd hid, ⟨rfl, rfl, rfl⟩, valid_ofReport.inRange,
      fun hne => absurd hid hne⟩
  · obtain ⟨battery, heq⟩ := xboxParse_other hdesc hd hid reportLen
    exact ⟨_, heq, ⟨rfl, rfl, rfl⟩, inRange_released, fun _ => rfl⟩

end Parser

theorem version_xboxoneSetup (lowEnergy : Bool) {d : XboxDevice}
    (hdesc : d.hidDescriptor = xboxHidDescriptor48Fw) :
    (xboxoneSetup lowEnergy d).version ≠ .v31 := by
  have hlen : 330 < xboxHidDescriptor48Fw.length := by decide +kernel
  unfold xboxoneSetup xboxoneVersion
  rw [hdesc]
  cases lowEnergy with
  | true => exact nofun
  | false =>
    simp only [Bool.false_eq_true, if_false, if_pos hlen]
    exact nofun

/-- A 4.8 before its first report. -/
def xboxDevice48 : XboxDevice :=
  xboxoneSetup false ⟨xboxHidDescriptor48Fw, .v31, .none, zeroGamepad, 0⟩

theorem xbox_report_safe_corner :
    letI := shiftModulo
    ∃ d', xboxParse xboxDevice48 cornerReport 17 = some d' ∧
      (d'.hidDescriptor = xboxDevice48.hidDescriptor ∧ d'.version = xboxDevice48.version ∧
        d'.klass = .gamepad) ∧
      d'.gamepad.toUniGamepad.InRange ∧ (cornerReport 0 ≠ 1 → d'.gamepad = zeroGamepad) := by
  let _ := shiftModulo
  exact xbox_report_safe xboxDevice48 rfl (version_xboxoneSetup false rfl) cornerReport 17

/-! ## The round trip -/

/-- The values of the rows. -/
def XboxPad.value (p : XboxPad) (i : ℕ) : ℕ :=
  ([p.x, p.y, p.z, p.rz, p.brake, p.accelerator, p.hat] ++ (List.ofFn p.button).map Bool.toNat ++
    [p.back.toNat]).getD i 0

variable {p : XboxPad}

theorem bitsValue_lt (bs : List Bool) : bitsValue bs < 2 ^ bs.length := by
  induction bs with
  | nil => exact Nat.one_pos
  | cons b bs ih =>
    have hb := b.toNat_lt
    rw [bitsValue, List.length_cons, pow_succ]
    omega

theorem value_button (p : XboxPad) (i : Fin 15) : p.value (7 + i) = (p.button i).toNat := by
  fin_cases i <;> rfl

/-- Each value fits its field. -/
theorem value_lt (h : p.Valid) : ∀ i < 23, p.value i < 2 ^ (padRow i).1.size.toNat := by
  obtain ⟨hx, hy, hz, hrz⟩ := h.sticks
  obtain ⟨hbrake, haccelerator⟩ := h.triggers
  have hbutton : ∀ i : Fin 15, p.value (7 + i) < 2 := fun i =>
    value_button p i ▸ (p.button i).toNat_lt
  intro i hi
  interval_cases i
  · exact hx
  · exact hy
  · exact hz
  · exact hrz
  · exact hbrake
  · exact haccelerator
  · exact h.hat
  · exact hbutton 0
  · exact hbutton 1
  · exact hbutton 2
  · exact hbutton 3
  · exact hbutton 4
  · exact hbutton 5
  · exact hbutton 6
  · exact hbutton 7
  · exact hbutton 8
  · exact hbutton 9
  · exact hbutton 10
  · exact hbutton 11
  · exact hbutton 12
  · exact hbutton 13
  · exact hbutton 14
  · exact p.back.toNat_lt

theorem toBits_natCast {item : HidUsageItem} {n : ℕ} (h : n < 2 ^ item.size.toNat) :
    item.toBits n = n := by
  unfold HidUsageItem.toBits
  have hmod : (n : ℤ) % 2 ^ item.size.toNat = n :=
    Int.emod_eq_of_lt (Int.natCast_nonneg n) (by exact_mod_cast h)
  rw [hmod, Int.toNat_natCast]

/-- The report is the id and, behind it, the values at the places that the descriptor gives them. -/
theorem ofLE_report (h : p.Valid) :
    ofLE p.report = 1 + pack ((List.range 23).map fun i => (padRow i).1.packed (p.value i)) := by
  have hpacked : ((List.range 23).map fun i => (padRow i).1.packed (p.value i)) =
      (List.range 23).map fun i =>
        ⟨(padRow i).1.startBit.toNat, (padRow i).1.size.toNat, p.value i⟩ := by
    refine List.map_congr_left ?_
    intro i hi
    unfold HidUsageItem.packed
    rw [toBits_natCast (value_lt h i (List.mem_range.1 hi))]
  have hbits : bitsValue (List.ofFn p.button) < 65536 := by
    have hlt := bitsValue_lt (List.ofFn p.button)
    rw [List.length_ofFn] at hlt
    omega
  have hpack : pack ((List.range 23).map fun i =>
      (⟨(padRow i).1.startBit.toNat, (padRow i).1.size.toNat, p.value i⟩ : Packed)) =
      p.x * 2 ^ 8 + (p.y * 2 ^ 24 + (p.z * 2 ^ 40 + (p.rz * 2 ^ 56 + (p.brake * 2 ^ 72 +
        (p.accelerator * 2 ^ 88 + (p.hat * 2 ^ 104 + ((p.button 0).toNat * 2 ^ 112 +
        ((p.button 1).toNat * 2 ^ 113 + ((p.button 2).toNat * 2 ^ 114 + ((p.button 3).toNat * 2 ^ 115 +
        ((p.button 4).toNat * 2 ^ 116 + ((p.button 5).toNat * 2 ^ 117 + ((p.button 6).toNat * 2 ^ 118 +
        ((p.button 7).toNat * 2 ^ 119 + ((p.button 8).toNat * 2 ^ 120 + ((p.button 9).toNat * 2 ^ 121 +
        ((p.button 10).toNat * 2 ^ 122 + ((p.button 11).toNat * 2 ^ 123 +
        ((p.button 12).toNat * 2 ^ 124 + ((p.button 13).toNat * 2 ^ 125 +
        ((p.button 14).toNat * 2 ^ 126 + (p.back.toNat * 2 ^ 128 + 0)))))))))))))))))))))) := rfl
  have hbuttons : bitsValue (List.ofFn p.button) = (p.button 0).toNat + 2 * ((p.button 1).toNat +
      2 * ((p.button 2).toNat + 2 * ((p.button 3).toNat + 2 * ((p.button 4).toNat +
      2 * ((p.button 5).toNat + 2 * ((p.button 6).toNat + 2 * ((p.button 7).toNat +
      2 * ((p.button 8).toNat + 2 * ((p.button 9).toNat + 2 * ((p.button 10).toNat +
      2 * ((p.button 11).toNat + 2 * ((p.button 12).toNat + 2 * ((p.button 13).toNat +
      2 * ((p.button 14).toNat + 2 * 0)))))))))))))) := rfl
  obtain ⟨hx, hy, hz, hrz⟩ := h.sticks
  obtain ⟨hbrake, haccelerator⟩ := h.triggers
  have hhat := h.hat
  have hone : ∀ b : Bool, b.toUInt8.toNat = b.toNat := by decide
  have hword : ∀ n, n < 65536 → ofLE (toLE 2 n) = n := fun n hn => ofLE_toLE hn
  have hbyte : (UInt8.ofNat p.hat).toNat = p.hat := UInt8.toNat_ofNat_of_lt' (by show p.hat < 256; omega)
  rw [hpacked, hpack]
  unfold XboxPad.report
  simp only [ofLE, ofLE_append, List.length_append, length_toLE, hword p.x hx, hword p.y hy, hword p.z hz,
    hword p.rz hrz, hword p.brake (by omega), hword p.accelerator (by omega), hword _ hbits,
    List.length_cons, List.length_nil, hbyte, hone]
  rw [hbuttons]
  have h1 : (1 : UInt8).toNat = 1 := rfl
  rw [h1]
  ring

theorem sent_report [WideShift] (h : p.Valid) {report : ℕ → UInt8}
    (hbytes : reportBytes report 17 = p.report) :
    Sent ((List.range 23).map fun i => (padRow i, (p.value i : ℤ))) 8 1 report 17 := by
  refine ⟨by decide, ?_, ?_, ?_⟩
  · intro f hf
    obtain ⟨i, hi, rfl⟩ := List.mem_map.1 hf
    have hi := List.mem_range.1 hi
    obtain ⟨hvar, hsize, hmin⟩ := padRow_unsigned i
    have hplace : ∀ i < 23, 0 < (padRow i).1.size.toNat ∧
        (padRow i).1.startBit.toNat + (padRow i).1.size.toNat ≤ 8 * (17 : UInt16).toNat ∧
          (padRow i).1.startBit.toNat % 8 + (padRow i).1.size.toNat ≤ 32 := by decide
    obtain ⟨hpos, hfit, hspan⟩ := hplace i hi
    refine ⟨⟨hvar, ⟨hpos, hfit⟩, hsize, hspan⟩, ?_⟩
    unfold HidUsageItem.Holds
    rw [if_neg hmin]
    have hlt : (p.value i : ℤ) < 2 ^ (padRow i).1.size.toNat := by exact_mod_cast value_lt h i hi
    exact ⟨Int.natCast_nonneg _, hlt⟩
  · have horder : InOrder 8 ((List.range 23).map padRow) := by
      simp only [List.range, List.range.loop, List.map_cons, List.map_nil, InOrder]
      decide
    refine ascending_packed ?_
    rw [List.map_map]
    exact horder
  · show ofLE (reportBytes report 17) = _
    rw [hbytes, ofLE_report h, List.map_map]
    rfl

/-- A pad comes back from its report. -/
theorem ofReport_report [WideShift] (h : p.Valid) {report : ℕ → UInt8}
    (hbytes : reportBytes report 17 = p.report) : XboxPad.ofReport report 17 = p := by
  have hvalue : ∀ i < 23, rowValue report 17 i = p.value i := by
    intro i hi
    have hmem : (padRow i, (p.value i : ℤ)) ∈ (List.range 23).map fun i =>
        (padRow i, (p.value i : ℤ)) := List.mem_map.2 ⟨i, List.mem_range.2 hi, rfl⟩
    have hfield := (sent_report h hbytes).field hmem
    have hpow := two_pow_size_le i
    have hlt := value_lt h i hi
    unfold rowValue
    rw [hfield]
    show (Int32.ofInt (p.value i)).toInt.toNat = p.value i
    rw [Int32.toInt_ofInt_of_le (by omega) (by omega), Int.toNat_natCast]
  have hbool : ∀ b : Bool, decide (b.toNat ≠ 0) = b := by decide
  have hbutton : (fun i : Fin 15 => decide (rowValue report 17 (7 + i) ≠ 0)) = p.button := by
    funext i
    rw [hvalue (7 + i) (by omega), ← hbool (p.button i), value_button]
  unfold XboxPad.ofReport
  dsimp only
  rw [hbutton, hvalue 0 (by omega), hvalue 1 (by omega), hvalue 2 (by omega), hvalue 3 (by omega),
    hvalue 4 (by omega), hvalue 5 (by omega), hvalue 6 (by omega), hvalue 22 (by omega)]
  have hback : decide (p.value 22 ≠ 0) = p.back := hbool p.back
  rw [hback]
  rfl

/-- A mask that is set under a condition. -/
theorem orIf_and_ne_zero (c : Prop) [Decidable c] (acc m k : UInt16) :
    (if c then acc ||| m else acc) &&& k ≠ 0 ↔ acc &&& k ≠ 0 ∨ (c ∧ m &&& k ≠ 0) := by
  by_cases hc : c
  · have hor : (acc ||| m) &&& k = acc &&& k ||| m &&& k := by
      rw [← UInt16.toBitVec_inj, UInt16.toBitVec_and, UInt16.toBitVec_or, UInt16.toBitVec_or,
        UInt16.toBitVec_and, UInt16.toBitVec_and]
      exact BitVec.and_or_distrib_right
    rw [if_pos hc, hor, Ne, UInt16.or_eq_zero_iff]
    tauto
  · rw [if_neg hc]
    tauto

/-- Some masks together have a bit in common with a mask if one of them has. -/
theorem masks_and_ne_zero (bits : List (Bool × UInt16)) (mask : UInt16) :
    masks bits &&& mask ≠ 0 ↔ ∃ b ∈ bits, b.1 = true ∧ b.2 &&& mask ≠ 0 := by
  have hgen : ∀ acc : UInt16,
      bits.foldl (fun acc b => if b.1 then acc ||| b.2 else acc) acc &&& mask ≠ 0 ↔
        acc &&& mask ≠ 0 ∨ ∃ b ∈ bits, b.1 = true ∧ b.2 &&& mask ≠ 0 := by
    induction bits with
    | nil => simp
    | cons b bs ih =>
      intro acc
      rw [List.foldl_cons, ih, orIf_and_ne_zero, List.exists_mem_cons_iff, or_assoc]
  have hstart := hgen 0
  rw [UInt16.zero_and] at hstart
  simpa [masks] using hstart

/-- X and Y share no bit with each other or with another button. -/
theorem buttons_disjoint : buttonX &&& buttonY = 0 ∧ buttonY &&& buttonX = 0 ∧
    ∀ m ∈ [buttonTriggerL, buttonTriggerR, buttonA, buttonB, buttonShoulderL, buttonShoulderR,
      buttonThumbL, buttonThumbR], m &&& buttonX = 0 ∧ m &&& buttonY = 0 := by
  refine ⟨rfl, rfl, ?_⟩
  intro m hm
  simp only [List.mem_cons, List.not_mem_nil, or_false] at hm
  rcases hm with rfl | rfl | rfl | rfl | rfl | rfl | rfl | rfl <;> exact ⟨rfl, rfl⟩

/-- The frame presses X and Y as the pad does. -/
theorem buttons_gamepad (p : XboxPad) : (p.gamepad.buttons &&& buttonX ≠ 0 ↔ p.button 3 = true) ∧
    (p.gamepad.buttons &&& buttonY ≠ 0 ↔ p.button 4 = true) := by
  obtain ⟨hxy, hyx, hothers⟩ := buttons_disjoint
  have hx : buttonX ≠ 0 := by decide
  have hy : buttonY ≠ 0 := by decide
  simp only [List.mem_cons, List.not_mem_nil, or_false, forall_eq_or_imp, forall_eq] at hothers
  constructor
  · show masks _ &&& buttonX ≠ 0 ↔ _
    rw [masks_and_ne_zero]
    simp [hothers, hx, hyx]
  · show masks _ &&& buttonY ≠ 0 ↔ _
    rw [masks_and_ne_zero]
    simp [hothers, hy, hxy]

/-- The X button of the pad is what the kill is bound to. -/
theorem pressesX_gamepad (klass : UniControllerClass) :
    (UniController.mk klass p.gamepad.toUniGamepad).pressesX = p.button 3 := by
  rw [Bool.eq_iff_iff]
  unfold UniController.pressesX
  rw [bne_iff_ne]
  exact (buttons_gamepad p).1

/-- What a controller reports of its pad comes out of the parser, the sticks on the scale of bluepad32, the
X button as the one that the kill is bound to, whatever lies behind the report. -/
theorem xbox_round_trip [WideShift] (d : XboxDevice) (hdesc : d.hidDescriptor = xboxHidDescriptor48Fw)
    (hd : d.version ≠ .v31) (p : XboxPad) (hp : p.Valid) (report : ℕ → UInt8)
    (hbytes : reportBytes report 17 = p.report) :
    ∃ d', xboxParse d report 17 = some d' ∧ d'.gamepad = p.gamepad ∧
      d'.controller.pressesX = p.button 3 := by
  have hid : report 0 = 1 := Option.some.inj (congrArg List.head? hbytes)
  refine ⟨_, xboxParse_pad hdesc hd hid, ?_, ?_⟩
  · show (XboxPad.ofReport report 17).gamepad = p.gamepad
    rw [ofReport_report hp hbytes]
  · show (UniController.mk _ (XboxPad.ofReport report 17).gamepad.toUniGamepad).pressesX = _
    rw [ofReport_report hp hbytes, pressesX_gamepad]

theorem xbox_round_trip_corner :
    letI := shiftModulo
    ∃ d', xboxParse xboxDevice48 cornerReport 17 = some d' ∧
      d'.gamepad = xboxPadCorner.gamepad ∧ d'.controller.pressesX = true := by
  let _ := shiftModulo
  exact xbox_round_trip xboxDevice48 rfl (version_xboxoneSetup false rfl) xboxPadCorner
    ⟨by decide, by decide, by decide⟩ _ (by decide)

end EdnaDrone
