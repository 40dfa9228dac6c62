import EdnaDrone.Firmware
import EdnaDrone.Proofs.EscProofs

/-!
# What each step of the firmware reads and writes

The frame lemmas of the tasks: the flight task never writes the shared globals, only the gamepad
callbacks write the setpoints and the kill flag, and only the flight task commands motors.
-/

namespace EdnaDrone

open Lib CNum

section Frames

variable {F : Type} {s : Firmware F} {snap : Snapshot F}

/-! ## Taking the mutexes -/

theorem flightCtrlTakeImu_eq (take : Bool) :
    ∃ task, flightCtrlTakeImu take s = { s with task := task } := by
  unfold flightCtrlTakeImu
  split
  · split
    · exact ⟨_, rfl⟩
    · exact ⟨_, rfl⟩
  · exact ⟨_, rfl⟩

theorem flightCtrlTakeSetpoint_eq (take : Bool) :
    ∃ task, flightCtrlTakeSetpoint take s = { s with task := task } := by
  unfold flightCtrlTakeSetpoint
  split
  · exact ⟨_, rfl⟩
  · exact ⟨_, rfl⟩

/-! ## Packets -/

theorem pid_setGains (fc : FlightController F) (a b : Axis) (g : Gains F) :
    (fc.setGains a g).pid b =
      if b = a then pidSetGains (fc.pid b) g.kp g.ki g.kd else fc.pid b := by
  cases a <;> cases b <;> rfl

section

variable [LT F] [DecidableLT F] [CNum F]

theorem applyPacket_eq_setGains {p : PidPacket F} {a : Axis} (hm : ¬ p.gains.malformed)
    (ha : selectAxis p.axis = some a) (fc : FlightController F) :
    applyPacket p fc = fc.setGains a p.gains := by
  unfold applyPacket
  rw [if_neg hm, ha]

/-- A packet changes the gains of at most one PID. -/
theorem pid_applyPacket (p : PidPacket F) (fc : FlightController F) (b : Axis) :
    (applyPacket p fc).pid b =
      if ¬ p.gains.malformed ∧ selectAxis p.axis = some b then
        pidSetGains (fc.pid b) p.gains.kp p.gains.ki p.gains.kd
      else fc.pid b := by
  unfold applyPacket
  by_cases hm : p.gains.malformed
  · simp [hm]
  rw [if_neg hm]
  cases selectAxis p.axis with
  | none => simp
  | some a => simp only [pid_setGains, hm, not_false_iff, true_and, Option.some.injEq, eq_comm]

/-- A datagram can set the telemetry client and the gains of one PID. -/
theorem receive_eq [CText F] (src : SockAddr) (data : Bytes) :
    ∃ t : TelemetryState F, (t.mFl = s.telem.mFl ∧ t.mFr = s.telem.mFr ∧ t.mRl = s.telem.mRl ∧
        t.mRr = s.telem.mRr) ∧
      telemetryReceivePidUpdates (some (src, data)) s =
        { s with
          telem := t
          fc := if s.wifi.sock < 0 ∨ recvBuf data = [] then s.fc
            else applyPacket (parsePacket (cstr (recvBuf data))) s.fc } := by
  unfold telemetryReceivePidUpdates
  by_cases hsock : s.wifi.sock < 0
  · simp only [if_pos hsock, if_pos (Or.inl hsock : s.wifi.sock < 0 ∨ recvBuf data = [])]
    exact ⟨_, ⟨rfl, rfl, rfl, rfl⟩, rfl⟩
  by_cases hbuf : recvBuf data = []
  · simp only [if_neg hsock, if_pos hbuf,
      if_pos (Or.inr hbuf : s.wifi.sock < 0 ∨ recvBuf data = [])]
    exact ⟨_, ⟨rfl, rfl, rfl, rfl⟩, rfl⟩
  · have h : ¬ (s.wifi.sock < 0 ∨ recvBuf data = []) := not_or.2 ⟨hsock, hbuf⟩
    simp only [if_neg hsock, if_neg hbuf, if_neg h]
    refine ⟨_, ?_, rfl⟩
    split
    · exact ⟨rfl, rfl, rfl, rfl⟩
    · exact ⟨rfl, rfl, rfl, rfl⟩

end

/-! ## The other tasks -/

variable [CNum F]

theorem imuPublish_eq [Sub F] (pitch roll yawRate : F) (take : Bool) :
    ∃ p r y, imuPublish pitch roll yawRate take s =
      { s with globals := { s.globals with pitchDeg := p, rollDeg := r, yawRate := y } } := by
  unfold imuPublish
  split
  · exact ⟨_, _, _, rfl⟩
  · exact ⟨_, _, _, rfl⟩

theorem flightCtrlStart_eq (now : ℕ) :
    ∃ fc task, flightCtrlStart now s = { s with fc := fc, task := task } := by
  unfold flightCtrlStart
  split
  · exact ⟨_, _, rfl⟩
  · exact ⟨_, _, rfl⟩

variable [Add F] [Mul F] [Div F] [LT F] [DecidableLT F]

/-- The gamepad callbacks write the controller and the shared globals only. -/
theorem onGamepadData_eq (ctl : UniController) (take : Bool) :
    ∃ ctrl globals, onGamepadData ctl take s = { s with ctrl := ctrl, globals := globals } := by
  unfold onGamepadData
  dsimp only
  split
  · exact ⟨_, _, rfl⟩
  · exact ⟨_, _, rfl⟩

/-! ## The flight task -/

variable [Sub F] [Neg F] [LE F] [DecidableLE F]

/-- An iteration leaves the shared globals, the controller and the socket as they are. -/
theorem flightCtrlBody_eq (now : ℕ) (snap : Snapshot F) :
    ∃ fc esc telem, flightCtrlBody now snap s = { s with fc := fc, esc := esc, telem := telem } := by
  unfold flightCtrlBody flightControllerUpdate
  dsimp only
  split
  · exact ⟨_, _, _, rfl⟩
  split
  · exact ⟨_, _, _, rfl⟩
  split
  · exact ⟨_, _, _, rfl⟩
  · exact ⟨_, _, _, rfl⟩

theorem flightCtrlAct_eq (now : ℕ) :
    ∃ fc esc telem task tick, flightCtrlAct now s =
      { s with fc := fc, esc := esc, telem := telem, task := task, lastTick := tick } := by
  unfold flightCtrlAct
  split
  · rename_i snap _
    obtain ⟨fc, esc, telem, h⟩ := flightCtrlBody_eq (s := s) now snap
    rw [h]
    exact ⟨_, _, _, _, _, rfl⟩
  · exact ⟨_, _, _, _, _, rfl⟩

theorem flightCtrlAct_gotSetpoint (h : s.task = .gotSetpoint snap) (now : ℕ) :
    flightCtrlAct now s =
      { flightCtrlBody now snap s with task := .wait, lastTick := some snap } := by
  unfold flightCtrlAct
  rw [h]

theorem flightCtrlAct_idle (h : ∀ snap, s.task ≠ .gotSetpoint snap) (now : ℕ) :
    flightCtrlAct now s = s := by
  unfold flightCtrlAct
  split
  · rename_i snap htask
    exact absurd htask (h snap)
  · rfl

variable [CText F]

theorem step_recv {data : Bytes} {src : SockAddr} (hsock : ¬ s.wifi.sock < 0)
    (hdata : recvBuf data ≠ []) :
    step s (.recv src data) =
      { s with
        telem :=
          if s.telem.clientSet then s.telem
          else { s.telem with client := src, clientSet := true }
        fc := applyPacket (parsePacket (cstr (recvBuf data))) s.fc } := by
  simp only [step, telemetryReceivePidUpdates, if_neg hsock, if_neg hdata]

/-! ## What the other steps leave alone -/

def Event.IsAct : Event F → Prop
  | .fcAct _ => True
  | _ => False

/-- The steps that neither start nor run the flight controller and decode no datagram. -/
def Event.IsInput : Event F → Prop
  | .fcInit _ | .fcAct _ | .recv _ _ => False
  | _ => True

/-- They write what the flight task reads, and how far it has come. -/
theorem step_input_eq {e : Event F} (he : e.IsInput) :
    ∃ ctrl globals task, step s e = { s with ctrl := ctrl, globals := globals, task := task } := by
  cases e with
  | gamepad ctl take =>
    obtain ⟨c, g, h⟩ := onGamepadData_eq (s := s) ctl take
    exact ⟨c, g, _, h⟩
  | imu pitch roll yawRate take =>
    obtain ⟨p, r, y, h⟩ := imuPublish_eq (s := s) pitch roll yawRate take
    exact ⟨_, _, _, h⟩
  | fcTakeImu take =>
    obtain ⟨task, h⟩ := flightCtrlTakeImu_eq (s := s) take
    exact ⟨_, _, task, h⟩
  | fcTakeSetpoint take =>
    obtain ⟨task, h⟩ := flightCtrlTakeSetpoint_eq (s := s) take
    exact ⟨_, _, task, h⟩
  | connected => exact ⟨_, _, _, rfl⟩
  | disconnected take => exact ⟨_, _, _, rfl⟩
  | send a b => exact ⟨_, _, _, rfl⟩
  | fcInit now => exact he.elim
  | fcAct now => exact he.elim
  | recv src data => exact he.elim

theorem task_start_input {e : Event F} (he : e.IsInput) (hs : s.task = .start) :
    (step s e).task = .start := by
  cases e with
  | gamepad ctl take =>
    obtain ⟨c, g, h⟩ := onGamepadData_eq (s := s) ctl take
    rw [step, h]
    exact hs
  | imu pitch roll yawRate take =>
    obtain ⟨p, r, y, h⟩ := imuPublish_eq (s := s) pitch roll yawRate take
    rw [step, h]
    exact hs
  | fcTakeImu take => simp only [step, flightCtrlTakeImu, hs]
  | fcTakeSetpoint take => simp only [step, flightCtrlTakeSetpoint, hs]
  | connected => exact hs
  | disconnected take => exact hs
  | send a b => exact hs
  | fcInit now => exact he.elim
  | fcAct now => exact he.elim
  | recv src data => exact he.elim

theorem task_ne_start_step (hs : s.task ≠ .start) (e : Event F) : (step s e).task ≠ .start := by
  intro hstart
  cases e with
  | gamepad ctl take =>
    obtain ⟨c, g, h⟩ := onGamepadData_eq (s := s) ctl take
    rw [step, h] at hstart
    exact hs hstart
  | imu pitch roll yawRate take =>
    obtain ⟨p, r, y, h⟩ := imuPublish_eq (s := s) pitch roll yawRate take
    rw [step, h] at hstart
    exact hs hstart
  | fcInit now =>
    rcases htask : s.task with _ | _ | ⟨pitch, roll, yawRate⟩ | snap
    · exact hs htask
    all_goals
      simp only [step, flightCtrlStart, htask] at hstart
      cases hstart
  | fcTakeImu take =>
    rcases htask : s.task with _ | _ | ⟨pitch, roll, yawRate⟩ | snap
    · exact hs htask
    all_goals
      cases take <;> simp [step, flightCtrlTakeImu, htask] at hstart
  | fcTakeSetpoint take =>
    rcases htask : s.task with _ | _ | ⟨pitch, roll, yawRate⟩ | snap
    · exact hs htask
    all_goals
      cases take <;> simp [step, flightCtrlTakeSetpoint, htask] at hstart
  | fcAct now =>
    rcases htask : s.task with _ | _ | ⟨pitch, roll, yawRate⟩ | snap
    · exact hs htask
    all_goals simp [step, flightCtrlAct, htask] at hstart
  | recv src data =>
    obtain ⟨t, -, h⟩ := receive_eq (s := s) src data
    simp only [step, h] at hstart
    exact hs hstart
  | connected => exact hs hstart
  | disconnected take => exact hs hstart
  | send a b => exact hs hstart

/-- Only the end of an iteration commands motors, caches values for telemetry and counts as a
tick. -/
theorem motors_frame {e : Event F} (he : ¬ e.IsAct) :
    (step s e).esc = s.esc ∧ (step s e).lastTick = s.lastTick ∧
      (step s e).telem.mFl = s.telem.mFl ∧ (step s e).telem.mFr = s.telem.mFr ∧
      (step s e).telem.mRl = s.telem.mRl ∧ (step s e).telem.mRr = s.telem.mRr := by
  by_cases hin : e.IsInput
  · obtain ⟨ctrl, globals, task, h⟩ := step_input_eq (s := s) hin
    simp only [h, and_self]
  cases e with
  | fcInit now =>
    obtain ⟨fc, task, h⟩ := flightCtrlStart_eq (s := s) now
    simp only [step, h, and_self]
  | fcAct now => exact absurd trivial he
  | recv src data =>
    obtain ⟨t, ht, h⟩ := receive_eq (s := s) src data
    simp only [step, h]
    exact ⟨trivial, trivial, ht⟩
  | _ => exact absurd trivial hin

/-- The tasks leave the state of the controller alone, and of the globals they write the attitude. -/
theorem tasks_frame {e : Event F} (h1 : ∀ ctl take, e ≠ .gamepad ctl take) (h2 : e ≠ .connected)
    (h3 : ∀ take, e ≠ .disconnected take) :
    (step s e).ctrl = s.ctrl ∧
      ∃ p r y, (step s e).globals = { s.globals with pitchDeg := p, rollDeg := r, yawRate := y } := by
  cases e with
  | gamepad ctl take => exact absurd rfl (h1 ctl take)
  | connected => exact absurd rfl h2
  | disconnected take => exact absurd rfl (h3 take)
  | imu pitch roll yawRate take =>
    obtain ⟨p, r, y, h⟩ := imuPublish_eq (s := s) pitch roll yawRate take
    simp only [step, h]
    exact ⟨trivial, p, r, y, rfl⟩
  | fcInit now =>
    obtain ⟨fc, task, h⟩ := flightCtrlStart_eq (s := s) now
    simp only [step, h]
    exact ⟨trivial, _, _, _, rfl⟩
  | fcTakeImu take =>
    obtain ⟨task, h⟩ := flightCtrlTakeImu_eq (s := s) take
    simp only [step, h]
    exact ⟨trivial, _, _, _, rfl⟩
  | fcTakeSetpoint take =>
    obtain ⟨task, h⟩ := flightCtrlTakeSetpoint_eq (s := s) take
    simp only [step, h]
    exact ⟨trivial, _, _, _, rfl⟩
  | fcAct now =>
    obtain ⟨fc, esc, telem, task, tick, h⟩ := flightCtrlAct_eq (s := s) now
    simp only [step, h]
    exact ⟨trivial, _, _, _, rfl⟩
  | recv src data =>
    obtain ⟨t, -, h⟩ := receive_eq (s := s) src data
    simp only [step, h]
    exact ⟨trivial, _, _, _, rfl⟩
  | send a b => exact ⟨rfl, _, _, _, rfl⟩

/-- Only the gamepad callbacks write the throttle, the setpoints and the kill flag. -/
theorem setpoints_frame {e : Event F} (h1 : ∀ ctl take, e ≠ .gamepad ctl take)
    (h2 : ∀ take, e ≠ .disconnected take) :
    (step s e).ctrl.throttleUs = s.ctrl.throttleUs ∧
      ∃ p r y, (step s e).globals = { s.globals with pitchDeg := p, rollDeg := r, yawRate := y } := by
  by_cases hc : e = .connected
  · subst hc
    exact ⟨rfl, _, _, _, rfl⟩
  · obtain ⟨hctrl, hglobals⟩ := tasks_frame (s := s) h1 hc h2
    rw [hctrl]
    exact ⟨rfl, hglobals⟩

/-- No step of a task writes the statics of `wifi_server.c`. -/
theorem wifi_frame (e : Event F) : (step s e).wifi = s.wifi := by
  by_cases hin : e.IsInput
  · obtain ⟨ctrl, globals, task, h⟩ := step_input_eq (s := s) hin
    rw [h]
  cases e with
  | fcInit now =>
    obtain ⟨fc, task, h⟩ := flightCtrlStart_eq (s := s) now
    simp only [step, h]
  | fcAct now =>
    obtain ⟨fc, esc, telem, task, tick, h⟩ := flightCtrlAct_eq (s := s) now
    simp only [step, h]
  | recv src data =>
    obtain ⟨t, -, h⟩ := receive_eq (s := s) src data
    simp only [step, h]
  | _ => exact absurd trivial hin

/-- Both mutexes taken one after the other: the snapshot is of one state of the globals. -/
theorem task_takes (h : s.task = .wait) :
    (step (step s (.fcTakeImu true)) (.fcTakeSetpoint true)).task =
      .gotSetpoint (s.globals.snapshot s.globals.pitchDeg s.globals.rollDeg s.globals.yawRate) := by
  simp only [step, flightCtrlTakeImu, flightCtrlTakeSetpoint, h, if_true]

theorem task_gotSetpoint_step {e : Event F} (hs : s.task = .gotSetpoint snap) (he : ¬ e.IsAct) :
    (step s e).task = .gotSetpoint snap := by
  cases e with
  | gamepad ctl take =>
    obtain ⟨c, g, h⟩ := onGamepadData_eq (s := s) ctl take
    simpa only [step, h] using hs
  | imu pitch roll yawRate take =>
    obtain ⟨p, r, y, h⟩ := imuPublish_eq (s := s) pitch roll yawRate take
    simpa only [step, h] using hs
  | fcInit now => simp only [step, flightCtrlStart, hs]
  | fcTakeImu take => simp only [step, flightCtrlTakeImu, hs]
  | fcTakeSetpoint take => simp only [step, flightCtrlTakeSetpoint, hs]
  | fcAct now => exact absurd trivial he
  | recv src data =>
    obtain ⟨t, -, h⟩ := receive_eq (s := s) src data
    simpa only [step, h] using hs
  | connected => exact hs
  | disconnected take => exact hs
  | send a b => exact hs

end Frames

end EdnaDrone
