import EdnaDrone.Devices
import EdnaDrone.Proofs.StepProofs

/-!
# One flag for several devices

The flag of `controller.c` says whether the latest callback was a connect. It says whether a device is
connected as long as no device disconnects before the last one.
-/

namespace EdnaDrone

open Lib CNum

theorem controllerIsConnected_eq_one {F : Type} {s : Firmware F} :
    controllerIsConnected s = 1 ↔ s.ctrl.connected = true := by
  unfold controllerIsConnected
  split <;> simp_all

section Steps

variable {ι F : Type} [DecidableEq ι] [Add F] [Sub F] [Mul F] [Div F] [Neg F] [LT F] [DecidableLT F]
  [LE F] [DecidableLE F] [CNum F] [CText F]

/-- No other task touches the flag. -/
theorem connected_frame {s : Firmware F} {e : Event F} (he : ¬ e.IsConnection) :
    (step s e).ctrl.connected = s.ctrl.connected := by
  by_cases hg : ∃ ctl take, e = .gamepad ctl take
  · obtain ⟨ctl, take, rfl⟩ := hg
    show (onGamepadData ctl take s).ctrl.connected = s.ctrl.connected
    unfold onGamepadData
    dsimp only
    split
    · rfl
    · rfl
  · have h1 : ∀ ctl take, e ≠ .gamepad ctl take := fun ctl take heq => hg ⟨ctl, take, heq⟩
    have h2 : e ≠ .connected := by
      rintro rfl
      exact he trivial
    have h3 : ∀ take, e ≠ .disconnected take := by
      rintro take rfl
      exact he trivial
    rw [(tasks_frame h1 h2 h3).1]

/-! ## The law -/

/-- `controller_is_connected` tells whether some device is connected. -/
def CountsDevices (s : DeviceSystem ι F) : Prop :=
  controllerIsConnected s.firmware = 1 ↔ s.devices.Nonempty

/-- The callbacks of each device alternate, and begin with a connect. -/
def AlternatesAt (s : DeviceSystem ι F) : DeviceEvent ι F → Prop
  | .connect d => d ∉ s.devices
  | .disconnect d _ => d ∈ s.devices
  | .task _ _ => True

/-- A device that disconnects is the last one. -/
def DisconnectsLast (s : DeviceSystem ι F) : DeviceEvent ι F → Prop
  | .disconnect d _ => d ∈ s.devices → s.devices = {d}
  | _ => True

theorem countsDevices_step {s : DeviceSystem ι F} (h : CountsDevices s) (e : DeviceEvent ι F) :
    CountsDevices (deviceStep s e) ↔ DisconnectsLast s e := by
  unfold CountsDevices at *
  rw [controllerIsConnected_eq_one] at *
  cases e with
  | connect d => exact iff_of_true (iff_of_true rfl (Finset.insert_nonempty _ _)) trivial
  | disconnect d take =>
    show (_ ↔ (s.devices.erase d).Nonempty) ↔ (d ∈ s.devices → s.devices = {d})
    simp only [deviceStep, uniHidDeviceDisconnect]
    by_cases hd : d ∈ s.devices
    · -- the callback clears the flag, whoever else is connected
      have hflag : ¬ (uniHidDeviceOnConnected false take s.firmware).ctrl.connected = true :=
        Bool.false_ne_true
      rw [if_pos hd, iff_false_left hflag, Finset.not_nonempty_iff_eq_empty,
        Finset.erase_eq_empty_iff]
      constructor
      · rintro (hempty | hsingle) _
        · rw [hempty] at hd
          exact absurd hd (Finset.notMem_empty d)
        · exact hsingle
      · intro hlast
        exact Or.inr (hlast hd)
    · rw [if_neg hd, Finset.erase_eq_of_notMem hd]
      exact iff_of_true h fun hd' => absurd hd' hd
  | task e he =>
    show ((step s.firmware e).ctrl.connected = true ↔ s.devices.Nonempty) ↔ True
    rw [connected_frame he]
    exact iff_true_intro h

end Steps

/-- In every run, `controller_is_connected` is 1 exactly while a device is connected if and only if no
device disconnects while another one is connected. -/
theorem connection_status_iff {ι : Type} [DecidableEq ι] (sock : ℤ)
    (es : List (DeviceEvent ι CFloat)) :
    (∀ n, CountsDevices (deviceRun sock (es.take n))) ↔
      ∀ pre d take post, es = pre ++ .disconnect d take :: post →
        d ∈ (deviceRun sock pre).devices → (deviceRun sock pre).devices = {d} := by
  have hstart : CountsDevices (deviceStart ι sock : DeviceSystem ι CFloat) := by
    unfold CountsDevices
    rw [controllerIsConnected_eq_one]
    exact iff_of_false Bool.false_ne_true Finset.not_nonempty_empty
  rw [← allSteps_iff_along CountsDevices hstart (fun _ e h => countsDevices_step h e) es,
    allSteps_iff_forall_split]
  constructor
  · intro h pre d take post hsplit
    exact h pre (.disconnect d take) post hsplit
  · intro h pre e post hsplit
    cases e with
    | connect d => trivial
    | disconnect d take => exact h pre d take post hsplit
    | task e he => trivial

/-- Two devices connect and the first one disconnects. -/
def firstOfTwoLeaves {ι : Type} (d d' : ι) : List (DeviceEvent ι CFloat) :=
  [.connect d, .connect d', .disconnect d true]

/-- The second device is still connected, and the status says that none is. -/
theorem status_forgets_second_device :
    ¬ ∀ es : List (DeviceEvent (Fin 4) CFloat),
      AllSteps deviceStep AlternatesAt (deviceStart (Fin 4) 3) es →
        CountsDevices (deviceRun 3 es) := by
  intro h
  have hcounts := h (firstOfTwoLeaves 0 1)
    ⟨Finset.notMem_empty _, show (1 : Fin 4) ∉ ({0} : Finset (Fin 4)) by decide,
      show (0 : Fin 4) ∈ ({1, 0} : Finset (Fin 4)) by decide, trivial⟩
  have hsome : (deviceRun 3 (firstOfTwoLeaves (0 : Fin 4) 1)).devices.Nonempty := ⟨1, by decide⟩
  exact absurd (hcounts.2 hsome) (by decide)

end EdnaDrone
