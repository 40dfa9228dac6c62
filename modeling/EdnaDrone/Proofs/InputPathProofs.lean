import EdnaDrone.InputPath
import EdnaDrone.Proofs.XboxReportProofs

/-!
# The drone behind its pad

The parser gives the drone only sticks in range, so what holds of the drone under that assumption holds
with a pad in front of it, whatever packets come in. Which button kills depends on the mappings, and any
report of the pad that does not hold it down brings the motors back.
-/

namespace EdnaDrone

open Lib CNum

/-! ## Mappings -/

section Remap

variable {gp : FullGamepad} {mask : UInt16}

/-- With Nintendo's layout, the frame presses X if the pad presses Y. -/
theorem remapSwitch_buttonX : gp.remapSwitch.buttons &&& buttonX ≠ 0 ↔ gp.buttons &&& buttonY ≠ 0 := by
  have hcleared : gp.buttons &&& ~~~(buttonA ||| buttonB ||| buttonX ||| buttonY) &&& buttonX = 0 := by
    rw [UInt16.and_assoc]
    exact UInt16.and_zero
  obtain ⟨-, hyx, hothers⟩ := buttons_disjoint
  have hx : buttonX ≠ 0 := by decide
  simp only [List.mem_cons, List.not_mem_nil, or_false, forall_eq_or_imp, forall_eq] at hothers
  unfold FullGamepad.remapSwitch
  simp only [orIf_and_ne_zero, hcleared, hothers, hyx]
  simp [hx]

variable [WideShift]

/-- The mappings of the firmware leave the sticks in range: they exchange no axes, or the table is empty
and every axis is the first one. -/
theorem inRange_remap (t : MappingsType) (h : gp.toUniGamepad.InRange) :
    (uniGamepadRemap t zeroMappings gp).toUniGamepad.InRange := by
  cases t with
  | xbox => exact h
  | switch => exact h
  | custom => exact ⟨h.1, h.1, h.1, h.1⟩

theorem remapBits_eq_masks (bits : UInt16) (table : List (UInt16 × UInt8)) :
    remapBits UInt32.toUInt16 bits table =
      masks (table.map fun e => (decide (bits &&& e.1 ≠ 0), (bit e.2).toUInt16)) := by
  unfold remapBits masks
  rw [List.foldl_map]
  simp only [decide_eq_true_eq]

/-- With an empty table of the user, every button of the pad is button A. -/
theorem remapCustom_buttonX : (gp.remapCustom zeroMappings).buttons &&& buttonX = 0 := by
  have hbit : (bit 0).toUInt16 = 1 := rfl
  have hone : (1 : UInt16) &&& buttonX = 0 := by decide
  by_contra hne
  unfold FullGamepad.remapCustom at hne
  dsimp only at hne
  rw [remapBits_eq_masks] at hne
  obtain ⟨b, hmem, -, hb⟩ := (masks_and_ne_zero _ _).1 hne
  obtain ⟨e, he, rfl⟩ := List.mem_map.1 hmem
  have hzero : e.2 = 0 := by
    simp only [List.mem_cons, List.not_mem_nil, or_false] at he
    rcases he with rfl | rfl | rfl | rfl | rfl | rfl | rfl | rfl | rfl | rfl <;> rfl
  rw [hzero, hbit] at hb
  exact hb hone

/-- The button of the pad that kills: X as it is printed on the pad or as Nintendo prints it, and none if
the table of the user is asked for. -/
def killButton (t : MappingsType) (p : XboxPad) : Bool :=
  match t with
  | .xbox => p.pressesX
  | .switch => p.pressesY
  | .custom => false

theorem pressesX_remap (klass : UniControllerClass) (t : MappingsType) (p : XboxPad) :
    (UniController.mk klass (uniGamepadRemap t zeroMappings p.gamepad).toUniGamepad).pressesX =
      killButton t p := by
  cases t with
  | xbox => exact pressesX_gamepad klass
  | switch =>
    rw [Bool.eq_iff_iff]
    unfold UniController.pressesX
    rw [bne_iff_ne]
    exact remapSwitch_buttonX.trans (buttons_gamepad p).2
  | custom =>
    unfold UniController.pressesX
    exact bne_eq_false_iff_eq.2 remapCustom_buttonX

theorem pressesX_remap_released (klass : UniControllerClass) (t : MappingsType) :
    (UniController.mk klass (uniGamepadRemap t zeroMappings zeroGamepad).toUniGamepad).pressesX =
      false := by
  unfold UniController.pressesX
  rw [bne_eq_false_iff_eq]
  cases t with
  | xbox => exact UInt16.zero_and
  | switch =>
    by_contra hne
    exact remapSwitch_buttonX.1 hne UInt16.zero_and
  | custom => exact remapCustom_buttonX

end Remap

/-! ## Packets -/

section Path

variable {F : Type} {s s' : InputPath F}

/-- A pad of version 4.8 or 5 with its descriptor, and no mappings of the user. -/
structure InputPath.Known (s : InputPath F) : Prop where
  hidDescriptor : s.device.hidDescriptor = xboxHidDescriptor48Fw
  version : s.device.version ≠ .v31
  map : s.map = zeroMappings

/-- A write to the mappings changes their type at most. -/
theorem onMappingsWritten_eq (buffer : Bytes) (offset : ℕ) (s : InputPath F) :
    ∃ t, onMappingsWritten buffer offset s = { s with mappingsType := t } := by
  unfold onMappingsWritten
  split
  · split
    · exact ⟨s.mappingsType, rfl⟩
    · split
      · exact ⟨s.mappingsType, rfl⟩
      · exact ⟨_, rfl⟩
  · exact ⟨s.mappingsType, rfl⟩

theorem known_inputStart [CNum F] {device : XboxDevice} (hdesc : device.hidDescriptor = xboxHidDescriptor48Fw)
    (hver : device.version ≠ .v31) (sock : ℤ) : (inputStart sock device : InputPath F).Known :=
  ⟨hdesc, hver, rfl⟩

variable [WideShift]

/-- What a report says about the pad. -/
def gamepadOfReport (report : ℕ → UInt8) (reportLen : UInt16) : FullGamepad :=
  if report 0 = 1 then (XboxPad.ofReport report reportLen).gamepad else zeroGamepad

theorem inRange_gamepadOfReport (report : ℕ → UInt8) (reportLen : UInt16) :
    (gamepadOfReport report reportLen).toUniGamepad.InRange := by
  unfold gamepadOfReport
  split
  · exact valid_ofReport.inRange
  · exact inRange_released

theorem xboxParse_known {d : XboxDevice} (hdesc : d.hidDescriptor = xboxHidDescriptor48Fw)
    (hd : d.version ≠ .v31) (report : ℕ → UInt8) (reportLen : UInt16) :
    ∃ battery, xboxParse d report reportLen = some
      { d with klass := .gamepad, gamepad := gamepadOfReport report reportLen, battery := battery } := by
  unfold gamepadOfReport
  by_cases hid : report 0 = 1
  · refine ⟨0, ?_⟩
    rw [xboxParse_pad hdesc hd hid, if_pos hid]
    rfl
  · obtain ⟨battery, heq⟩ := xboxParse_other hdesc hd hid reportLen
    refine ⟨battery, ?_⟩
    rw [heq, if_neg hid]
    rfl

/-- The frame that the platform gets of a report. -/
def frameOf (s : InputPath F) (report : ℕ → UInt8) (reportLen : UInt16) : UniController :=
  ⟨.gamepad, (uniGamepadRemap s.mappingsType s.map (gamepadOfReport report reportLen)).toUniGamepad⟩

variable [Add F] [Mul F] [Div F] [LT F] [DecidableLT F] [CNum F]

/-- An input report of a pad gets through, and if the pad is ready its frame goes to the platform. -/
theorem onL2capDataPacket_report (h : s.Known) {packet : ℕ → UInt8} {size : UInt16} (take : Bool)
    (hsize : ¬ size < 2) (hdata : packet 0 = hidDataInput) :
    ∃ s', onL2capDataPacket .interrupt packet size take s = some s' ∧ s'.Known ∧
      s'.mappingsType = s.mappingsType ∧ s'.ready = s.ready ∧
      s'.firmware = if s.ready then
        onGamepadData (frameOf s (fun i => packet (i + 1)) (size - 1)) take s.firmware
        else s.firmware := by
  obtain ⟨battery, hparse⟩ := xboxParse_known h.hidDescriptor h.version (fun i => packet (i + 1))
    (size - 1)
  unfold onL2capDataPacket
  dsimp only
  rw [if_neg hsize, if_neg (not_not.2 hdata), hparse, Option.map_some]
  refine ⟨_, rfl, ?_⟩
  unfold uniHidDeviceProcessController
  dsimp only
  by_cases hready : s.ready = true
  · rw [if_pos hready, if_pos rfl, if_pos hready]
    exact ⟨⟨h.hidDescriptor, h.version, h.map⟩, rfl, rfl, rfl⟩
  · rw [if_neg hready, if_neg hready]
    exact ⟨⟨h.hidDescriptor, h.version, h.map⟩, rfl, rfl, rfl⟩

/-- Everything else that comes in on a channel is dropped. -/
theorem onL2capDataPacket_dropped {channel : Channel} {packet : ℕ → UInt8} {size : UInt16} (take : Bool)
    (h : ¬ (channel = .interrupt ∧ ¬ size < 2 ∧ packet 0 = hidDataInput)) :
    onL2capDataPacket channel packet size take s = some s := by
  unfold onL2capDataPacket
  cases channel with
  | control => rfl
  | unknown => rfl
  | interrupt =>
    dsimp only
    by_cases hsize : size < 2
    · rw [if_pos hsize]
    · rw [if_neg hsize, if_pos fun hdata => h ⟨rfl, hsize, hdata⟩]

variable [Sub F] [Neg F] [LE F] [DecidableLE F] [CText F]

/-- One step of the path is no step of the drone or one with the sticks in range. -/
theorem inputStep_spec (h : s.Known) (e : InputEvent F) :
    ∃ s', inputStep (some s) e = some s' ∧ s'.Known ∧
      (s'.firmware = s.firmware ∨ ∃ e', e'.SticksInRange ∧ s'.firmware = step s.firmware e') := by
  cases e with
  | packet channel packet size take =>
    by_cases hreport : channel = .interrupt ∧ ¬ size < 2 ∧ packet 0 = hidDataInput
    · obtain ⟨rfl, hsize, hdata⟩ := hreport
      obtain ⟨s', hs', hknown, -, -, hfirmware⟩ := onL2capDataPacket_report h take hsize hdata
      refine ⟨s', hs', hknown, ?_⟩
      by_cases hready : s.ready = true
      · rw [if_pos hready] at hfirmware
        refine Or.inr ⟨.gamepad _ take, ?_, hfirmware⟩
        show (uniGamepadRemap s.mappingsType s.map _).toUniGamepad.InRange
        rw [h.map]
        exact inRange_remap _ (inRange_gamepadOfReport _ _)
      · rw [if_neg hready] at hfirmware
        exact Or.inl hfirmware
    · exact ⟨s, onL2capDataPacket_dropped take hreport, h, Or.inl rfl⟩
  | writeMappings buffer offset =>
    obtain ⟨t, ht⟩ := onMappingsWritten_eq buffer offset s
    refine ⟨_, rfl, ?_⟩
    rw [ht]
    exact ⟨⟨h.hidDescriptor, h.version, h.map⟩, Or.inl rfl⟩
  | setReady ready => exact ⟨_, rfl, ⟨h.hidDescriptor, h.version, h.map⟩, Or.inl rfl⟩
  | task e he =>
    refine ⟨_, rfl, ⟨h.hidDescriptor, h.version, h.map⟩, Or.inr ⟨e, ?_, rfl⟩⟩
    cases e with
    | gamepad => exact absurd trivial he
    | _ => trivial

/-- A run of the path is a run of the drone with the sticks in range. -/
theorem inputRun_refines (h : s.Known) (es : List (InputEvent F)) :
    ∃ s', runFrom inputStep (some s) es = some s' ∧ s'.Known ∧
      ∃ es', (∀ e ∈ es', e.SticksInRange) ∧ s'.firmware = runFrom step s.firmware es' := by
  induction es generalizing s with
  | nil => exact ⟨s, rfl, h, [], by simp, rfl⟩
  | cons e es ih =>
    obtain ⟨t, ht, hknown, hfirmware⟩ := inputStep_spec h e
    obtain ⟨s', hs', hknown', es', hall, hrun⟩ := ih hknown
    refine ⟨s', ?_, hknown', ?_⟩
    · rw [runFrom_cons, ht]
      exact hs'
    · rcases hfirmware with hsame | ⟨e', he', hstep⟩
      · exact ⟨es', hall, hsame ▸ hrun⟩
      · refine ⟨e' :: es', ?_, ?_⟩
        · intro x hx
          rcases List.mem_cons.1 hx with rfl | hx
          · exact he'
          · exact hall x hx
        · rw [runFrom_cons, ← hstep]
          exact hrun

/-- After any run, an input report that gets the mutex decides alone whether the motors are killed: they
are if it is a report of the pad with the button of the current mappings held down. Any other report
brings them back, also one that has nothing to do with the pad. -/
theorem report_decides_kill (sock : ℤ) (device : XboxDevice)
    (hdesc : device.hidDescriptor = xboxHidDescriptor48Fw) (hver : device.version ≠ .v31)
    (es : List (InputEvent F)) (packet : ℕ → UInt8) (size : UInt16) (hsize : ¬ size < 2)
    (hdata : packet 0 = hidDataInput) :
    ∃ s s', inputRun sock device es = some s ∧
      inputRun sock device (es ++ [.packet .interrupt packet size true]) = some s' ∧
      s'.firmware.globals.motorsKilled =
        if s.ready then
          decide (packet 1 = 1) &&
            killButton s.mappingsType (.ofReport (fun i => packet (i + 1)) (size - 1))
        else s.firmware.globals.motorsKilled := by
  obtain ⟨s, hs, hknown, -⟩ := inputRun_refines (known_inputStart (F := F) hdesc hver sock) es
  obtain ⟨s', hs', -, -, -, hfirmware⟩ := onL2capDataPacket_report hknown true hsize hdata
  refine ⟨s, s', hs, ?_, ?_⟩
  · show runFrom inputStep _ (es ++ _) = _
    rw [runFrom_append, hs]
    exact hs'
  · rw [hfirmware]
    by_cases hready : s.ready = true
    · rw [if_pos hready, if_pos hready]
      have hflag : ∀ ctl : UniController, (onGamepadData ctl true s.firmware).globals.motorsKilled =
          ctl.pressesX := by
        intro ctl
        unfold onGamepadData
        cases hx : ctl.pressesX <;> rfl
      rw [hflag]
      unfold frameOf gamepadOfReport
      rw [hknown.map]
      by_cases hid : packet 1 = 1
      · rw [if_pos hid, decide_eq_true hid, Bool.true_and, pressesX_remap]
      · rw [if_neg hid, decide_eq_false hid, Bool.false_and, pressesX_remap_released]
    · rw [if_neg hready, if_neg hready]

end Path

/-- The packet with the pad in the corner and X held down. -/
def xPacket (i : ℕ) : UInt8 := (hidDataInput :: xboxPadCorner.report).getD i 0

theorem report_decides_kill_x :
    letI := shiftModulo
    ∃ s s' : InputPath ℚ, inputRun 3 xboxDevice48 [.setReady true] = some s ∧
      inputRun 3 xboxDevice48 [.setReady true, .packet .interrupt xPacket 18 true] = some s' ∧
      s'.firmware.globals.motorsKilled =
        if s.ready then
          decide (xPacket 1 = 1) &&
            killButton s.mappingsType (.ofReport (fun i => xPacket (i + 1)) 17)
        else s.firmware.globals.motorsKilled := by
  let _ := shiftModulo
  exact report_decides_kill 3 xboxDevice48 rfl (version_xboxoneSetup false rfl) [.setReady true]
    xPacket 18 (by decide) rfl

/-- Over exact arithmetic, with any packets on any channel, any writes to the mappings and any steps of
the tasks in any order, the parser does not stop the drone, the setpoints stay in their ranges, a kill
zeroes them and the motors spin only on an iteration that may spin them. -/
theorem raw_packets_fly_safely {K : Type} [Field K] [LinearOrder K] [IsStrictOrderedRing K] [FloorRing K]
    [WideShift] (sock : ℤ) (device : XboxDevice)
    (hdesc : device.hidDescriptor = xboxHidDescriptor48Fw) (hver : device.version ≠ .v31)
    (es : List (InputEvent K)) :
    ∃ s, inputRun sock device es = some s ∧ SetpointsBounded s.firmware ∧ KillZeroes s.firmware ∧
      SpinJustified s.firmware := by
  obtain ⟨s, hs, -, es', hall, hfirmware⟩ := inputRun_refines (known_inputStart (F := K) hdesc hver sock) es
  refine ⟨s, hs, ?_⟩
  rw [hfirmware]
  refine ⟨?_, ?_, ?_⟩
  · exact (allSteps_of_forall hall).invariant SetpointsBounded (setpointsBounded_boot sock)
      fun _ _ he hs => setpointsBounded_step hs he
  · refine runFrom_invariant KillZeroes ?_ (fun _ _ hs => killZeroes_step hs) es'
    intro hk
    exact absurd hk (by simp [inputStart, boot])
  · exact runFrom_invariant SpinJustified (spinJustified_boot sock)
      (fun _ _ hs => spinJustified_step hs) es'

theorem raw_packets_fly_safely_x :
    letI := shiftModulo
    ∃ s : InputPath ℚ, inputRun 3 xboxDevice48 [.setReady true, .packet .interrupt xPacket 18 true] =
      some s ∧ SetpointsBounded s.firmware ∧ KillZeroes s.firmware ∧ SpinJustified s.firmware := by
  let _ := shiftModulo
  exact raw_packets_fly_safely 3 xboxDevice48 rfl (version_xboxoneSetup false rfl) _

end EdnaDrone
