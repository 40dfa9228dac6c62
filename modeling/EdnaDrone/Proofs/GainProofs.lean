import EdnaDrone.Proofs.FloatProofs
import EdnaDrone.Proofs.InterlockProofs

/-!
# Stored gains and the outputs they lead to

`telemetry_receive_pid_updates` rejects a packet when `kp < 0 || ki < 0 || kd < 0`. A NaN passes this
check, and so does an infinity. The gains stay finite exactly in the runs whose accepted datagrams
carry three finite numbers, and the outputs stay in their limits exactly while no PID has its
proportional and derivative terms overflow in opposite directions.
-/

namespace EdnaDrone

open Lib CNum

open Lib.Flt hiding ofRat abs

/-! ## The law -/

/-- All nine stored gains are finite and not negative. -/
def GainsSane (s : Firmware CFloat) : Prop := ∀ a, (s.fc.pid a).SaneGains

/-- What the other tasks feed the flight task with: sticks in range, and attitudes that are numbers
with the yaw rate of a 16-bit gyro reading. -/
def Event.InputsSane : Event CFloat → Prop
  | .gamepad ctl _ => ctl.gamepad.InRange
  | .imu pitch roll yawRate _ =>
    pitch.IsNum ∧ roll.IsNum ∧ ∃ raw : ℤ, (-2 ^ 15 ≤ raw ∧ raw < 2 ^ 15) ∧ yawRate = gyroDps raw
  | _ => True

section

variable {F : Type}

def Snapshot.setpoint (snap : Snapshot F) : Axis → F
  | .pitch => snap.pitchSp
  | .roll => snap.rollSp
  | .yaw => snap.yawSp

def Snapshot.measurement (snap : Snapshot F) : Axis → F
  | .pitch => snap.pitch
  | .roll => snap.roll
  | .yaw => snap.yawRate

end

/-- The output of an axis in an iteration with the time step `dt`. -/
def Snapshot.output (snap : Snapshot CFloat) (fc : FlightController CFloat) (dt : CFloat) (a : Axis) :
    CFloat :=
  (pidUpdate (fc.pid a) (snap.setpoint a) (snap.measurement a) dt).2

/-- In an iteration that mixes, every output is within its limit and the mixer converts only numbers
between the pulse limits. -/
def OutputsSane (s : Firmware CFloat) : Event CFloat → Prop
  | .fcAct now => ∀ snap, s.task = .gotSetpoint snap → ¬ snap.ArmExit →
    let out := snap.output s.fc (guardedDt (UInt32.ofNat now) s.fc.lastUpdateUs)
    (∀ a, -(s.fc.pid a).outputLimit ≤ out a ∧ out a ≤ (s.fc.pid a).outputLimit) ∧
      MixSumsConvert snap.throttle (out .pitch) (out .roll) (out .yaw)
  | _ => True

/-- A datagram that passes the check for malformed packets and names an axis carries three finite
numbers. -/
def UpdateFinite (s : Firmware CFloat) : Event CFloat → Prop
  | .recv _ data =>
    let p : PidPacket CFloat := parsePacket (cstr (recvBuf data))
    ¬ (s.wifi.sock < 0 ∨ recvBuf data = []) → ¬ p.gains.malformed → selectAxis p.axis ≠ none →
      p.gains.kp.IsFinite ∧ p.gains.ki.IsFinite ∧ p.gains.kd.IsFinite
  | _ => True

/-- In an iteration that mixes, no PID has two terms that clash. -/
def NoTermsClash (s : Firmware CFloat) : Event CFloat → Prop
  | .fcAct now => ∀ snap, s.task = .gotSetpoint snap → ¬ snap.ArmExit → ∀ a,
    ¬ (s.fc.pid a).TermsClash (pidError (snap.setpoint a) (snap.measurement a))
      (guardedDt (UInt32.ofNat now) s.fc.lastUpdateUs)
  | _ => True

/-! ## What a step does to the PIDs -/

theorem pid_reset {F : Type} [CNum F] (fc : FlightController F) (a : Axis) :
    fc.reset.pid a = pidReset (fc.pid a) := by
  cases a <;> rfl

section Frames

variable {F : Type} [Add F] [Sub F] [Mul F] [Div F] [Neg F] [LT F] [DecidableLT F] [LE F]
  [DecidableLE F] [CNum F] {s : Firmware F}

theorem pid_flightCtrlBody (now : ℕ) (snap : Snapshot F) (a : Axis) :
    (flightCtrlBody now snap s).fc.pid a = pidReset (s.fc.pid a) ∨
      (¬ snap.ArmExit ∧ (flightCtrlBody now snap s).fc.pid a =
        (pidUpdate (s.fc.pid a) (snap.setpoint a) (snap.measurement a)
          (guardedDt (UInt32.ofNat now) s.fc.lastUpdateUs)).1) := by
  by_cases hx : snap.ArmExit
  · left
    unfold flightCtrlBody
    by_cases hk : snap.killed = true
    · rw [if_pos hk]
      exact pid_reset _ a
    rw [if_neg hk]
    by_cases ha : snap.angleExceeded
    · rw [if_pos ha]
      exact pid_reset _ a
    rw [if_neg ha]
    have ht : snap.throttle ≤ escPwmSpinUs := (hx.resolve_left hk).resolve_left ha
    simp only [if_pos ht, flightControllerUpdate]
    cases a <;> rfl
  · right
    refine ⟨hx, ?_⟩
    rw [flightCtrlBody_of_not_armExit hx]
    cases a <;> rfl

variable [CText F]

/-- Only a datagram and `flight_controller_init` change gains. -/
theorem gains_frame {e : Event F} (h1 : ∀ src data, e ≠ .recv src data) (h2 : ∀ now, e ≠ .fcInit now)
    (a : Axis) : ((step s e).fc.pid a).gains = (s.fc.pid a).gains := by
  by_cases hin : e.IsInput
  · obtain ⟨ctrl, globals, task, h⟩ := step_input_eq (s := s) hin
    rw [h]
  cases e with
  | fcInit now => exact absurd rfl (h2 now)
  | fcAct now =>
    simp only [step, flightCtrlAct]
    split
    · rename_i snap _
      show PidState.gains ((flightCtrlBody now snap s).fc.pid a) = _
      rcases pid_flightCtrlBody (s := s) now snap a with h | ⟨-, h⟩
      · rw [h]
        rfl
      · rw [h]
        rfl
    · rfl
  | recv src data => exact absurd rfl (h1 src data)
  | _ => exact absurd trivial hin

end Frames

/-! ## The invariant -/

/-- The shared globals of a run with sane inputs. -/
structure GlobalsOk (g : Globals CFloat) : Prop where
  pitchDeg : g.pitchDeg.IsNum
  rollDeg : g.rollDeg.IsNum
  yawRate : Bounded 8 g.yawRate
  throttle : 0 ≤ g.throttle ∧ g.throttle ≤ escPwmFlightMaxUs
  pitchSp : Bounded 8 g.pitchSp
  rollSp : Bounded 8 g.rollSp
  yawSp : Bounded 8 g.yawSp

structure SnapshotOk (snap : Snapshot CFloat) : Prop where
  pitch : snap.pitch.IsNum
  roll : snap.roll.IsNum
  yawRate : Bounded 8 snap.yawRate
  throttle : 0 ≤ snap.throttle ∧ snap.throttle ≤ escPwmFlightMaxUs
  setpoint : ∀ a, Bounded 8 (snap.setpoint a)

def FcTask.Ok : FcTask CFloat → Prop
  | .gotImu pitch roll yawRate => pitch.IsNum ∧ roll.IsNum ∧ Bounded 8 yawRate
  | .gotSetpoint snap => SnapshotOk snap
  | _ => True

/-- What holds in every state of a run with sane inputs, whatever the gains are. -/
structure FlightOk (s : Firmware CFloat) : Prop where
  pids : ∀ a, PidOk (s.fc.pid a)
  throttleUs : (escPwmMinUs : ℤ) ≤ s.ctrl.throttleUs ∧ s.ctrl.throttleUs ≤ escPwmFlightMaxUs
  globals : GlobalsOk s.globals
  task : s.task.Ok

variable {s : Firmware CFloat}

theorem FlightOk.of_eq {t : Firmware CFloat} (h : FlightOk s) (hfc : t.fc = s.fc)
    (hctrl : t.ctrl.throttleUs = s.ctrl.throttleUs) (hg : t.globals = s.globals)
    (htask : t.task.Ok) : FlightOk t :=
  ⟨hfc ▸ h.pids, hctrl ▸ h.throttleUs, hg ▸ h.globals, htask⟩

theorem isNum_zero : (ofRat 0 : CFloat).IsNum := (Flt.isZero_ofRat_zero.bounded 0).isFinite.isNum

theorem throttle_ok {t : ℤ} (h : (escPwmMinUs : ℤ) ≤ t ∧ t ≤ escPwmFlightMaxUs) :
    0 ≤ t ∧ t ≤ escPwmFlightMaxUs := ⟨le_trans (by decide) h.1, h.2⟩

theorem armUs_mem : (escPwmMinUs : ℤ) ≤ escPwmArmUs ∧ (escPwmArmUs : ℤ) ≤ escPwmFlightMaxUs := by
  decide

theorem flightOk_boot (sock : ℤ) : FlightOk (boot sock) := by
  have hz : Bounded 8 (ofRat 0 : CFloat) := Flt.isZero_ofRat_zero.bounded 8
  have hspin : (escPwmMinUs : ℤ) ≤ escPwmSpinUs ∧ (escPwmSpinUs : ℤ) ≤ escPwmFlightMaxUs := by decide
  refine ⟨?_, hspin, ⟨isNum_zero, isNum_zero, hz, throttle_ok armUs_mem, hz, hz, hz⟩, trivial⟩
  intro a
  cases a <;> exact pidOk_pidZero

theorem GlobalsOk.kill {g : Globals CFloat} (h : GlobalsOk g) (take : Bool) :
    GlobalsOk (if take then g.kill else g) := by
  have hz : Bounded 8 (ofRat 0 : CFloat) := Flt.isZero_ofRat_zero.bounded 8
  split
  · exact { h with throttle := throttle_ok armUs_mem, pitchSp := hz, rollSp := hz, yawSp := hz }
  · exact h

theorem FlightOk.gamepad {ctl : UniController} (take : Bool) (h : FlightOk s)
    (hr : ctl.gamepad.InRange) : FlightOk (onGamepadData ctl take s) := by
  unfold onGamepadData
  dsimp only
  split
  · exact ⟨h.pids, armUs_mem, h.globals.kill take, h.task⟩
  · obtain ⟨hx, -, hrx, hry⟩ := hr
    have ht := accumulateThrottle_mem (F := CFloat) ctl.gamepad.axisY h.throttleUs.1 h.throttleUs.2
    refine ⟨h.pids, ht, ?_, h.task⟩
    split
    · refine { h.globals with
        throttle := throttle_ok ht
        pitchSp := bounded_normalizeAngle ?_
        rollSp := bounded_normalizeAngle (abs_le_stickMax hrx)
        yawSp := bounded_normalizeYaw (abs_le_stickMax hx) }
      rw [abs_neg]
      exact abs_le_stickMax hry
    · exact h.globals

theorem GlobalsOk.snapshot {g : Globals CFloat} (h : GlobalsOk g) {pitch roll yawRate : CFloat}
    (hp : pitch.IsNum) (hr : roll.IsNum) (hy : Bounded 8 yawRate) :
    SnapshotOk (g.snapshot pitch roll yawRate) := by
  refine ⟨hp, hr, hy, h.throttle, ?_⟩
  intro a
  cases a with
  | pitch => exact h.pitchSp
  | roll => exact h.rollSp
  | yaw => exact h.yawSp

/-- Attitudes that pass the cutoff are bounded, and so are the errors of the three axes. -/
theorem SnapshotOk.bounded_error {snap : Snapshot CFloat} (h : SnapshotOk snap)
    (hx : ¬ snap.ArmExit) (a : Axis) :
    Bounded 9 (pidError (snap.setpoint a) (snap.measurement a)) := by
  unfold Snapshot.ArmExit Snapshot.angleExceeded at hx
  simp only [not_or] at hx
  obtain ⟨-, ⟨hp1, hp2, hr1, hr2⟩, -⟩ := hx
  have hlim : Bounded 8 (ofRat angleLimitDeg : CFloat) := by decide +kernel
  have hnum := hlim.isFinite.isNum
  have hneg := hlim.isFinite.neg.isNum
  have hm : Bounded 8 (snap.measurement a) := by
    cases a with
    | pitch =>
      exact hlim.of_between (IsNum.le_of_not_lt h.pitch hneg hp2) (IsNum.le_of_not_lt hnum h.pitch hp1)
    | roll =>
      exact hlim.of_between (IsNum.le_of_not_lt h.roll hneg hr2) (IsNum.le_of_not_lt hnum h.roll hr1)
    | yaw => exact h.yawRate
  exact (h.setpoint a).sub (by decide) (by decide) hm

/-! ## One step keeps the invariant -/

theorem FlightOk.snapshotOk {snap : Snapshot CFloat} (h : FlightOk s)
    (htask : s.task = .gotSetpoint snap) : SnapshotOk snap := by
  have h1 := h.task
  rwa [htask] at h1

theorem FlightOk.act (h : FlightOk s) (now : ℕ) : FlightOk (flightCtrlAct now s) := by
  unfold flightCtrlAct
  split
  · rename_i snap htask
    have hsnap := h.snapshotOk htask
    obtain ⟨fc, esc, telem, hb⟩ := flightCtrlBody_eq (s := s) now snap
    refine ⟨?_, by rw [hb]; exact h.throttleUs, by rw [hb]; exact h.globals, trivial⟩
    intro a
    show PidOk ((flightCtrlBody now snap s).fc.pid a)
    rcases pid_flightCtrlBody now snap a with hr | ⟨hx, hm⟩
    · rw [hr]
      exact (h.pids a).pidReset
    · rw [hm]
      exact (h.pids a).pidUpdate (hsnap.bounded_error hx a) (dtOk_guardedDt _ _)
  · exact h

theorem FlightOk.imu {pitch roll yawRate : CFloat} (take : Bool) (h : FlightOk s)
    (hp : pitch.IsNum) (hr : roll.IsNum) (hy : Bounded 8 yawRate) :
    FlightOk (imuPublish pitch roll yawRate take s) := by
  unfold imuPublish
  split
  · have hoff : (ofRat imuPitchOffsetDeg : CFloat).IsFinite ∧
        (ofRat imuRollOffsetDeg : CFloat).IsFinite := by decide +kernel
    exact ⟨h.pids, h.throttleUs, { h.globals with
      pitchDeg := hp.sub_finite hoff.1, rollDeg := hr.sub_finite hoff.2
      yawRate := hy }, h.task⟩
  · exact h

theorem FlightOk.takeImu (take : Bool) (h : FlightOk s) : FlightOk (flightCtrlTakeImu take s) := by
  unfold flightCtrlTakeImu
  split
  · split
    · exact h.of_eq rfl rfl rfl ⟨h.globals.pitchDeg, h.globals.rollDeg, h.globals.yawRate⟩
    · exact h
  · exact h

theorem FlightOk.takeSetpoint (take : Bool) (h : FlightOk s) :
    FlightOk (flightCtrlTakeSetpoint take s) := by
  unfold flightCtrlTakeSetpoint
  split
  · rename_i pitch roll yawRate htask
    have htask' : pitch.IsNum ∧ roll.IsNum ∧ Bounded 8 yawRate := by
      have := h.task
      rwa [htask] at this
    refine h.of_eq rfl rfl rfl ?_
    split
    · exact h.globals.snapshot htask'.1 htask'.2.1 htask'.2.2
    · trivial
  · exact h

/-- A datagram changes gains only, and the invariant says nothing about gains. -/
theorem FlightOk.recv (src : SockAddr) (data : Bytes) (h : FlightOk s) :
    FlightOk (telemetryReceivePidUpdates (some (src, data)) s) := by
  obtain ⟨t, -, hr⟩ := receive_eq (s := s) src data
  rw [hr]
  refine ⟨?_, h.throttleUs, h.globals, h.task⟩
  intro a
  show PidOk (FlightController.pid (if _ then _ else _) a)
  split_ifs
  · exact h.pids a
  · rw [pid_applyPacket]
    split_ifs
    · exact (h.pids a).pidSetGains _ _ _
    · exact h.pids a

theorem flightOk_step {e : Event CFloat} (h : FlightOk s) (he : e.InputsSane) :
    FlightOk (step s e) := by
  cases e with
  | gamepad ctl take => exact h.gamepad take he
  | connected => exact h.of_eq rfl rfl rfl h.task
  | disconnected take => exact ⟨h.pids, armUs_mem, h.globals.kill take, h.task⟩
  | imu pitch roll yawRate take =>
    obtain ⟨hp, hr, raw, hraw, rfl⟩ := he
    exact h.imu take hp hr (bounded_gyroDps hraw)
  | fcInit now =>
    simp only [step, flightCtrlStart]
    split
    · refine ⟨?_, h.throttleUs, h.globals, trivial⟩
      intro a
      cases a <;> exact pidOk_pidInit _ _ _
    · exact h
  | fcTakeImu take => exact h.takeImu take
  | fcTakeSetpoint take => exact h.takeSetpoint take
  | fcAct now => exact h.act now
  | recv src data => exact h.recv src data
  | send a b => exact h

/-! ## One step keeps the law exactly under its condition -/

theorem saneGain_iff {x : CFloat} (h : ¬ x < ofInt 0) : SaneGain x ↔ x.IsFinite := by
  constructor
  · exact fun hx => hx.1
  · intro hx
    exact ⟨hx, IsNum.le_of_not_lt hx.isNum (isNum_ofInt 0) h⟩

instance (x : CFloat) : Decidable (SaneGain x) := by unfold SaneGain; infer_instance

theorem saneGains_pidInit : ∀ a : Axis,
    ((flightControllerInit 0 (boot 0 : Firmware CFloat)).fc.pid a).SaneGains := by
  intro a
  cases a <;> exact ⟨by decide +kernel, by decide +kernel, by decide +kernel⟩

theorem saneGains_congr {p q : PidState CFloat} (h : p.gains = q.gains) :
    p.SaneGains ↔ q.SaneGains := by
  obtain ⟨hp, hi, hd⟩ : p.kp = q.kp ∧ p.ki = q.ki ∧ p.kd = q.kd := by
    simpa only [PidState.gains, Gains.mk.injEq] using h
  unfold PidState.SaneGains
  rw [hp, hi, hd]

theorem saneGains_pidSetGains_iff {g : Gains CFloat} (hm : ¬ g.malformed) (q : PidState CFloat) :
    (pidSetGains q g.kp g.ki g.kd).SaneGains ↔
      g.kp.IsFinite ∧ g.ki.IsFinite ∧ g.kd.IsFinite := by
  unfold Gains.malformed at hm
  simp only [not_or] at hm
  rw [← saneGain_iff hm.1, ← saneGain_iff hm.2.1, ← saneGain_iff hm.2.2]
  exact Iff.rfl

/-- A packet leaves the gains sane exactly when it is dropped or carries three finite numbers. -/
theorem saneGains_applyPacket_iff {fc : FlightController CFloat}
    (hg : ∀ a, (fc.pid a).SaneGains) (p : PidPacket CFloat) :
    (∀ a, ((applyPacket p fc).pid a).SaneGains) ↔
      (¬ p.gains.malformed → selectAxis p.axis ≠ none →
        p.gains.kp.IsFinite ∧ p.gains.ki.IsFinite ∧ p.gains.kd.IsFinite) := by
  simp only [pid_applyPacket]
  by_cases hm : p.gains.malformed
  · simp only [hm, not_true, false_and, if_false]
    exact iff_of_true hg fun hn => hn.elim
  constructor
  · intro hall _ hsel
    obtain ⟨a, ha⟩ := Option.ne_none_iff_exists'.1 hsel
    have := hall a
    rwa [if_pos ⟨hm, ha⟩, saneGains_pidSetGains_iff hm] at this
  · intro hfin a
    by_cases ha : selectAxis p.axis = some a
    · rw [if_pos ⟨hm, ha⟩, saneGains_pidSetGains_iff hm]
      exact hfin hm (by rw [ha]; simp)
    · rw [if_neg fun h => ha h.2]
      exact hg a

theorem gainsSane_step {e : Event CFloat} (hg : GainsSane s) :
    GainsSane (step s e) ↔ UpdateFinite s e := by
  cases e with
  | fcInit now =>
    refine iff_of_true ?_ trivial
    simp only [step, flightCtrlStart]
    split
    · exact saneGains_pidInit
    · exact hg
  | recv src data =>
    obtain ⟨t, -, h⟩ := receive_eq (s := s) src data
    simp only [step, h, GainsSane, UpdateFinite]
    by_cases hd : s.wifi.sock < 0 ∨ recvBuf data = []
    · simp only [if_pos hd]
      exact iff_of_true hg fun hn => absurd hd hn
    · simp only [hd, not_false_iff, true_implies]
      exact saneGains_applyPacket_iff hg _
  | _ =>
    exact iff_of_true (fun a => (saneGains_congr (gains_frame (by simp) (by simp) a)).2 (hg a)) trivial

theorem outputsSane_iff {e : Event CFloat} (h : FlightOk s) (hg : GainsSane s) :
    OutputsSane s e ↔ NoTermsClash s e := by
  cases e with
  | fcAct now =>
    have hone : ∀ snap, s.task = .gotSetpoint snap → ¬ snap.ArmExit → ∀ a, _ :=
      fun snap htask hx a =>
        pidUpdate_output_mem (h.pids a) (hg a)
          ((h.snapshotOk htask).bounded_error hx a)
          (dtOk_guardedDt (UInt32.ofNat now) s.fc.lastUpdateUs)
    constructor
    · intro ho snap htask hx a
      exact (hone snap htask hx a).1 ((ho snap htask hx).1 a)
    · intro hc snap htask hx out
      have hout : ∀ a, -(s.fc.pid a).outputLimit ≤ out a ∧ out a ≤ (s.fc.pid a).outputLimit :=
        fun a => (hone snap htask hx a).2 (hc snap htask hx a)
      have hb : ∀ a, Bounded 7 (out a) := fun a =>
        (h.pids a).outputLimit.of_between (hout a).1 (hout a).2
      exact ⟨hout, mixSumsConvert (h.snapshotOk htask).throttle (hb _) (hb _) (hb _)⟩
  | _ => exact Iff.rfl

/-! ## Runs -/

theorem gainsSane_boot (sock : ℤ) : GainsSane (boot sock) := by
  have h0 : SaneGain (ofRat 0) := by decide +kernel
  intro a
  cases a <;> exact ⟨h0, h0, h0⟩

/-- In a run with sane inputs the gains stay sane, every output stays within its limit and only
numbers between the pulse limits are converted, exactly when every accepted datagram carries finite
numbers and no PID has its terms clash. -/
theorem gains_stay_sane_iff (sock : ℤ) (es : List (Event CFloat)) (h : ∀ e ∈ es, e.InputsSane) :
    AllSteps step (fun s e => GainsSane (step s e) ∧ OutputsSane s e) (boot sock) es ↔
      AllSteps step (fun s e => UpdateFinite s e ∧ NoTermsClash s e) (boot sock) es := by
  refine allSteps_iff_of_invariant (fun s => FlightOk s ∧ GainsSane s)
    ⟨flightOk_boot sock, gainsSane_boot sock⟩ h ?_ ?_
  · rintro s e he ⟨hs, hg⟩
    rw [gainsSane_step hg, outputsSane_iff hs hg]
  · rintro s e he ⟨hs, -⟩ ⟨hg', -⟩
    exact ⟨flightOk_step hs he, hg'⟩

/-- A datagram with three decimals, and one with `nan` for the proportional gain. -/
def tuneDatagram : Bytes := ascii "\x7b\"axis\":\"pitch\",\"kp\":1.5,\"ki\":0.1,\"kd\":0.02\x7d"
def nanDatagram : Bytes := ascii "\x7b\"axis\":\"pitch\",\"kp\":nan,\"ki\":0.1,\"kd\":0.02\x7d"

/-- The flight task starts, a tuning packet arrives, the pilot climbs and the task mixes once. -/
def tunedClimb : List (Event CFloat) :=
  [.fcInit 0, .recv ⟨1, 1⟩ tuneDatagram, .gamepad climbFrame true, .fcTakeImu true,
    .fcTakeSetpoint true, .fcAct 10000]

theorem gains_stay_sane_iff_tuned :
    AllSteps step (fun s e => GainsSane (step s e) ∧ OutputsSane s e) (boot 3) tunedClimb ↔
      AllSteps step (fun s e => UpdateFinite s e ∧ NoTermsClash s e) (boot 3) tunedClimb :=
  gains_stay_sane_iff 3 tunedClimb (by
    simp [tunedClimb, Event.InputsSane, UniGamepad.InRange, climbFrame])

/-- The text `nan` passes the check for malformed packets and is stored. -/
theorem nan_gain_stored :
    ¬ ∀ (sock : ℤ) (es : List (Event CFloat)), (∀ e ∈ es, e.InputsSane) →
      AllSteps step (fun s e => GainsSane (step s e) ∧ OutputsSane s e) (boot sock) es := by
  intro h
  have h1 := h 3 [.fcInit 0, .recv ⟨1, 1⟩ nanDatagram] (by simp [Event.InputsSane])
  have h2 := (h1.2.1.1 .pitch).1
  revert h2
  decide +kernel

end EdnaDrone
