import EdnaDrone.Console
import EdnaDrone.FlightTask
import EdnaDrone.Lib.FltOrder
import EdnaDrone.Proofs.GainProofs
import EdnaDrone.Proofs.TimerProofs

/-!
# What survives a safety trip

The killed exit and the angle exit of `flight_ctrl_task` reset the three PIDs, but they leave
`last_update_us` as it is, which the exit at a low throttle does not. The time step of the first
iteration after a trip is taken from it, so two histories lead to the same motor commands ever after
exactly when their time stamps agree.
-/

namespace EdnaDrone

open Lib CNum

open Lib.Flt hiding ofRat abs

section Model

variable {F : Type} {s t : Firmware F}

/-! ## The firmware runs the flight controller -/

/-- The flight controller and the motors of the two states are the same. -/
structure SameFlight (s t : Firmware F) : Prop where
  fc : s.fc = t.fc
  esc : s.esc = t.esc

theorem flightEvent_input {e : Event F} (he : e.IsInput) (s : Firmware F) :
    s.flightEvent e = none ∨ s.flightEvent e = some .missed := by
  cases e with
  | fcTakeImu take =>
    unfold Firmware.flightEvent
    rcases s.task with _ | _ | ⟨pitch, roll, yawRate⟩ | snap
    · exact .inl rfl
    · cases take
      · exact .inr rfl
      · exact .inl rfl
    · exact .inl rfl
    · exact .inl rfl
  | fcTakeSetpoint take =>
    unfold Firmware.flightEvent
    rcases s.task with _ | _ | ⟨pitch, roll, yawRate⟩ | snap
    · exact .inl rfl
    · exact .inl rfl
    · cases take
      · exact .inr rfl
      · exact .inl rfl
    · exact .inl rfl
  | fcAct now => exact he.elim
  | recv src data => exact he.elim
  | _ => exact .inl rfl

/-! ## The PIDs -/

variable [CNum F]

/-- The limits are those that `pid_init` sets. -/
def PidState.InitLimits (p : PidState F) : Prop :=
  p.outputLimit = ofRat pidOutputLimit ∧ p.integralLimit = ofRat pidIntegralLimit

theorem pidReset_congr {p q : PidState F} (hp : p.InitLimits) (hq : q.InitLimits)
    (hg : p.gains = q.gains) : pidReset p = pidReset q := by
  obtain ⟨kp, ki, kd, pint, prev, pout, plim⟩ := p
  obtain ⟨kp', ki', kd', qint, prev', qout, qlim⟩ := q
  obtain ⟨rfl, rfl⟩ := hp
  obtain ⟨rfl, rfl⟩ := hq
  simp only [PidState.gains, Gains.mk.injEq] at hg
  obtain ⟨rfl, rfl, rfl⟩ := hg
  rfl

/-- After a safety exit only the gains and the time stamp are left of the past. -/
theorem fc_safetyExit_congr (hs : ∀ a, (s.fc.pid a).InitLimits)
    (ht : ∀ a, (t.fc.pid a).InitLimits) (hg : s.fc.gains = t.fc.gains)
    (hstamp : s.fc.lastUpdateUs = t.fc.lastUpdateUs) : s.fc.reset = t.fc.reset := by
  have hpid : ∀ a, pidReset (s.fc.pid a) = pidReset (t.fc.pid a) := fun a =>
    pidReset_congr (hs a) (ht a) (congrFun hg a)
  have hp := hpid .pitch
  have hr := hpid .roll
  have hy := hpid .yaw
  simp only [FlightController.pid] at hp hr hy
  unfold FlightController.reset
  rw [hp, hr, hy, hstamp]

/-! ## The flight task -/

variable [Add F] [Sub F] [Mul F] [Div F] [Neg F] [LT F] [DecidableLT F] [LE F] [DecidableLE F]

/-- What an iteration does depends on the flight controller and the motors alone, and what it does to
the flight controller not even on the motors. -/
theorem flightCtrlBody_congr (h : s.fc = t.fc) (now : ℕ) (snap : Snapshot F) :
    (flightCtrlBody now snap s).fc = (flightCtrlBody now snap t).fc ∧
      (s.esc = t.esc → (flightCtrlBody now snap s).esc = (flightCtrlBody now snap t).esc) := by
  unfold flightCtrlBody flightControllerUpdate
  by_cases hk : snap.killed = true
  · simp only [if_pos hk, flightControllerResetIntegrals, escArmAll, h, true_and]
    intro hesc
    rw [hesc]
  by_cases ha : snap.angleExceeded
  · simp only [if_neg hk, if_pos ha, flightControllerResetIntegrals, escArmAll, h, true_and]
    intro hesc
    rw [hesc]
  by_cases ht : snap.throttle ≤ escPwmSpinUs
  · simp only [if_neg hk, if_neg ha, if_pos ht, flightControllerResetIntegrals, escArmAll, h,
      true_and]
    intro hesc
    rw [hesc]
  · simp only [if_neg hk, if_neg ha, if_neg ht, flightControllerMix, h, true_and]
    intro hesc
    rw [hesc]

variable [CText F]

theorem fc_flightStep_congr (h : s.fc = t.fc) (e : FlightEvent F) :
    (flightStep s e).fc = (flightStep t e).fc := by
  cases e with
  | tick now snap => exact (flightCtrlBody_congr h now snap).1
  | missed => exact h
  | gains data => simp only [flightStep, h]

theorem SameFlight.flightStep (h : SameFlight s t) (e : FlightEvent F) :
    SameFlight (flightStep s e) (flightStep t e) := by
  refine ⟨fc_flightStep_congr h.fc e, ?_⟩
  cases e with
  | tick now snap => exact (flightCtrlBody_congr h.fc now snap).2 h.esc
  | missed => exact h.esc
  | gains data => exact h.esc

theorem SameFlight.step (h : SameFlight s t) (hs : s.task ≠ .start) (e : Event F) :
    SameFlight (step s e) (runFrom EdnaDrone.flightStep t (s.flightEvent e).toList) := by
  by_cases hin : e.IsInput
  · obtain ⟨ctrl, globals, task, heq⟩ := step_input_eq (s := s) hin
    have hsame : SameFlight (EdnaDrone.step s e) t := by
      rw [heq]
      exact ⟨h.fc, h.esc⟩
    rcases flightEvent_input hin s with hnone | hmissed
    · rwa [hnone]
    · rwa [hmissed]
  cases e with
  | fcInit now =>
    have hidle : EdnaDrone.step s (.fcInit now) = s := by
      show flightCtrlStart now s = s
      unfold flightCtrlStart
      split
      · rename_i htask
        exact absurd htask hs
      · rfl
    rw [hidle]
    exact h
  | fcAct now =>
    show SameFlight (flightCtrlAct now s) _
    by_cases htask : ∃ snap, s.task = .gotSetpoint snap
    · obtain ⟨snap, htask⟩ := htask
      have hev : s.flightEvent (.fcAct now) = some (.tick now snap) := by
        simp only [Firmware.flightEvent, htask]
      have hnext := h.flightStep (.tick now snap)
      rw [hev, flightCtrlAct_gotSetpoint htask]
      exact ⟨hnext.fc, hnext.esc⟩
    · have hidle : ∀ snap, s.task ≠ .gotSetpoint snap := fun snap h => htask ⟨snap, h⟩
      have hev : s.flightEvent (.fcAct now) = none := by
        simp only [Firmware.flightEvent]
      rw [hev, flightCtrlAct_idle hidle]
      exact h
  | recv src data =>
    obtain ⟨u, -, heq⟩ := receive_eq (s := s) src data
    simp only [EdnaDrone.step, heq, Firmware.flightEvent]
    by_cases hdrop : s.wifi.sock < 0 ∨ recvBuf data = []
    · simp only [if_pos hdrop]
      exact ⟨h.fc, h.esc⟩
    · have hnext := h.flightStep (.gains data)
      simp only [if_neg hdrop]
      exact ⟨hnext.fc, hnext.esc⟩
  | _ => exact absurd trivial hin

/-- Before the task starts, no motor is commanded. -/
def ArmedAtStart (s : Firmware F) : Prop := s.task = .start → s.esc = (boot 0 : Firmware F).esc

theorem ArmedAtStart.step (h : ArmedAtStart s) (e : Event F) : ArmedAtStart (step s e) := by
  intro hstart
  have htask : s.task = .start := by
    by_contra hne
    exact task_ne_start_step hne e hstart
  by_cases he : e.IsAct
  · cases e with
    | fcAct now =>
      have hidle : ∀ snap, s.task ≠ .gotSetpoint snap := by
        intro snap hsnap
        rw [htask] at hsnap
        cases hsnap
      show (flightCtrlAct now s).esc = _
      rw [flightCtrlAct_idle hidle]
      exact h htask
    | _ => exact he.elim
  · rw [(motors_frame he).1]
    exact h htask

theorem armedAtStart_run (sock : ℤ) (es : List (Event F)) : ArmedAtStart (run sock es) := by
  have hboot : ArmedAtStart (boot sock : Firmware F) := fun _ => rfl
  exact runFrom_invariant ArmedAtStart hboot (fun _ e h => h.step e) es

/-- In every run of the firmware, once the flight task has started, the flight controller and the
motors are in the state that the controller's own events lead to. -/
theorem flight_refines (sock : ℤ) (now : ℕ) (es₀ es : List (Event F))
    (h : (run sock es₀).task = .start) :
    SameFlight (run sock (es₀ ++ .fcInit now :: es))
      (flightRun now
        (observed step Firmware.flightEvent (run sock (es₀ ++ [.fcInit now])) es)) := by
  have hinit : step (run sock es₀) (.fcInit now) =
      { flightControllerInit now (run sock es₀) with task := .wait } := by
    simp only [step, flightCtrlStart, h]
  have hsplit : run sock (es₀ ++ .fcInit now :: es) =
      runFrom step (step (run sock es₀) (.fcInit now)) es := by
    rw [run, runFrom_append, runFrom_cons]
  have hrun : run sock (es₀ ++ [.fcInit now]) = step (run sock es₀) (.fcInit now) := by
    rw [run, runFrom_append, runFrom_cons, runFrom_nil]
  have hbase : (step (run sock es₀) (.fcInit now)).task ≠ .start ∧
      SameFlight (step (run sock es₀) (.fcInit now)) (flightRun now []) := by
    rw [hinit]
    refine ⟨?_, rfl, armedAtStart_run sock es₀ h⟩
    intro hstart
    cases hstart
  rw [hsplit, hrun]
  refine (observed_invariant
    (fun (bs : List (FlightEvent F)) s => s.task ≠ .start ∧ SameFlight s (flightRun now bs)) []
    hbase ?_ es).2
  rintro bs s e ⟨hs, hsame⟩
  rw [flightRun, runFrom_append]
  exact ⟨task_ne_start_step hs e, hsame.step hs e⟩

/-! ## The time stamp -/

/-- The reading that an iteration leaves as the time stamp. -/
def FlightEvent.stamp : FlightEvent F → Option ℕ
  | .tick now snap => if snap.SafetyExit then none else some now
  | _ => none

/-- The latest reading of `flight_controller_init` and `flight_controller_update` in a history. -/
def lastStamp (start : ℕ) (es : List (FlightEvent F)) : ℕ :=
  (es.filterMap FlightEvent.stamp).getLastD start

theorem lastUpdateUs_flightStep (s : Firmware F) (e : FlightEvent F) :
    (flightStep s e).fc.lastUpdateUs =
      match e.stamp with
      | some now => UInt32.ofNat now
      | none => s.fc.lastUpdateUs := by
  cases e with
  | tick now snap =>
    show (flightCtrlBody now snap s).fc.lastUpdateUs = _
    rw [lastUpdateUs_flightCtrlBody]
    by_cases hx : snap.SafetyExit
    · simp only [FlightEvent.stamp, if_pos hx]
    · simp only [FlightEvent.stamp, if_neg hx]
  | missed => rfl
  | gains data => exact lastUpdateUs_applyPacket _ _

theorem lastUpdateUs_flightRun (start : ℕ) (es : List (FlightEvent F)) :
    (flightRun start es).fc.lastUpdateUs = UInt32.ofNat (lastStamp start es) := by
  induction es using List.reverseRecOn with
  | nil => rfl
  | append_singleton es e ih =>
    rw [flightRun, runFrom_append, runFrom_cons, runFrom_nil, lastUpdateUs_flightStep, lastStamp,
      List.filterMap_append, List.filterMap_cons]
    cases e.stamp with
    | none =>
      rw [List.filterMap_nil, List.append_nil]
      exact ih
    | some now =>
      rw [List.filterMap_nil, List.getLastD_concat]

theorem initLimits_flightStep (h : ∀ a, (s.fc.pid a).InitLimits) (e : FlightEvent F) (a : Axis) :
    ((flightStep s e).fc.pid a).InitLimits := by
  cases e with
  | tick now snap =>
    show ((flightCtrlBody now snap s).fc.pid a).InitLimits
    rcases pid_flightCtrlBody (s := s) now snap a with heq | ⟨-, heq⟩
    · rw [heq]
      exact h a
    · rw [heq]
      exact h a
  | missed => exact h a
  | gains data =>
    show ((applyPacket _ s.fc).pid a).InitLimits
    rw [pid_applyPacket]
    split
    · exact h a
    · exact h a

theorem initLimits_flightRun (start : ℕ) (es : List (FlightEvent F)) :
    ∀ a, ((flightRun start es).fc.pid a).InitLimits := by
  refine runFrom_invariant (fun s : Firmware F => ∀ a, (s.fc.pid a).InitLimits) ?_
    (fun s e h => initLimits_flightStep h e) es
  intro a
  cases a <;> exact ⟨rfl, rfl⟩

/-! ## The motor commands -/

/-- The pulses that an iteration requests. -/
def tickPulses (fc : FlightController F) (now : ℕ) (snap : Snapshot F) : Motor → ℕ :=
  if snap.ArmExit then fun _ => escPwmArmUs
  else
    let motors := mixedMotors (guardedDt (UInt32.ofNat now) fc.lastUpdateUs) snap fc
    pulseOf motors.fl motors.fr motors.rl motors.rr

theorem tickCommands_tick (s : Firmware F) (now : ℕ) (snap : Snapshot F) :
    tickCommands s (.tick now snap) = some fun m => some (tickPulses s.fc now snap m) := by
  show some (flightCtrlBody now snap s).esc.lastCommanded = _
  congr 1
  funext m
  unfold tickPulses
  by_cases hx : snap.ArmExit
  · rw [if_pos hx, lastCommanded_of_calls (flightCtrlBody_armExit hx now).1, pulseOf_same]
  · rw [if_neg hx, flightCtrlBody_of_not_armExit hx,
      lastCommanded_of_calls (flightControllerMix_calls _ snap)]
    rfl

theorem tickCommands_congr (h : s.fc = t.fc) (e : FlightEvent F) :
    tickCommands s e = tickCommands t e := by
  cases e with
  | tick now snap => rw [tickCommands_tick, tickCommands_tick, h]
  | missed => rfl
  | gains data => rfl

/-! ## The law -/

/-- From the reading `now` on, the same events lead to the same motor commands. -/
def ForgetsPast (now : ℕ) (s t : Firmware F) : Prop :=
  ∀ es : List (FlightEvent F), (now :: es.filterMap FlightEvent.reading).IsChain (· ≤ ·) →
    observed flightStep tickCommands s es = observed flightStep tickCommands t es

theorem forgetsPast_of_fc_eq (h : s.fc = t.fc) (now : ℕ) : ForgetsPast now s t := by
  intro es _
  exact observed_eq_of_lockstep (fun s t : Firmware F => s.fc = t.fc) h
    (fun _ _ e h => tickCommands_congr h e) (fun _ _ e h => fc_flightStep_congr h e) es

end Model

/-! ## A continuation that tells two time stamps apart -/

/-- The time step of an iteration 0.1 s after the time stamp. -/
theorem guardedDt_tenth {now last : UInt32} (h : now - last = 100000) :
    (guardedDt now last : CFloat) = ofRat (1 / 10) := by
  have hn : (now - last).toNat = 100000 := by
    rw [h]
    rfl
  rw [guardedDt_soon (by omega) (by omega), hn]
  norm_num


/-- Datagrams that leave a derivative gain to the pitch axis and nothing else. -/
def probeDatagram : Axis → Bytes
  | .pitch => ascii "\x7b\"axis\":\"pitch\",\"kp\":0,\"ki\":0,\"kd\":0.05\x7d"
  | .roll => ascii "\x7b\"axis\":\"roll\",\"kp\":0,\"ki\":0,\"kd\":0\x7d"
  | .yaw => ascii "\x7b\"axis\":\"yaw\",\"kp\":0,\"ki\":0,\"kd\":0\x7d"

def probeGains : PidSet CFloat
  | .pitch => ⟨ofRat 0, ofRat 0, ofRat (5 / 100)⟩
  | .roll => ⟨ofRat 0, ofRat 0, ofRat 0⟩
  | .yaw => ⟨ofRat 0, ofRat 0, ofRat 0⟩

theorem applyPacket_probe (a : Axis) (fc : FlightController CFloat) :
    applyPacket (parsePacket (cstr (recvBuf (probeDatagram a)))) fc =
      fc.setGains a (probeGains a) := by
  have hparse : (parsePacket (cstr (recvBuf (probeDatagram a))) : PidPacket CFloat).gains =
      probeGains a := by
    cases a <;> decide +kernel
  have haxis : selectAxis
      (parsePacket (cstr (recvBuf (probeDatagram a))) : PidPacket CFloat).axis = some a := by
    cases a <;> decide +kernel
  have hgood : ¬ (probeGains a).malformed := by
    cases a <;> decide +kernel
  rw [applyPacket_eq_setGains (hparse ▸ hgood) haxis, hparse]

/-- A level drone whose pilot pulls the pitch stick by a quarter. -/
def probeSnap : Snapshot CFloat where
  pitch := ofRat 0
  roll := ofRat 0
  yawRate := ofRat 0
  throttle := 1250
  pitchSp := normalizeAngle 128
  rollSp := ofRat 0
  yawSp := ofRat 0
  killed := false

def probeUpdates : List (FlightEvent CFloat) :=
  [.gains (probeDatagram .pitch), .gains (probeDatagram .roll), .gains (probeDatagram .yaw)]

/-- The PIDs after the datagrams. -/
def probePid (a : Axis) : PidState CFloat :=
  pidReset (pidSetGains (pidInit (ofRat 0) (ofRat 0) (ofRat 0)) (probeGains a).kp (probeGains a).ki
    (probeGains a).kd)

/-- The front left pulse that the iteration requests after the time step `dt`. -/
def probePulse (dt : CFloat) : ℕ :=
  (mixedMotors dt probeSnap ⟨probePid .pitch, probePid .roll, probePid .yaw, 0⟩).fl

theorem probePulse_ne : probePulse (ofRat (1 / 10)) ≠ probePulse (ofRat (1 / 100)) := by
  decide +kernel

theorem pidSetGains_pidReset {p : PidState CFloat} (h : p.InitLimits) (a : Axis) :
    pidSetGains (pidReset p) (probeGains a).kp (probeGains a).ki (probeGains a).kd = probePid a := by
  obtain ⟨kp, ki, kd, pint, prev, pout, plim⟩ := p
  obtain ⟨rfl, rfl⟩ := h
  rfl

theorem fc_flightStep_probe (s : Firmware CFloat) (a : Axis) :
    (flightStep s (.gains (probeDatagram a))).fc = s.fc.setGains a (probeGains a) :=
  applyPacket_probe a s.fc

theorem fc_probeUpdates {s : Firmware CFloat} {fc : FlightController CFloat}
    (hfc : s.fc = fc.reset) (h : ∀ a, (fc.pid a).InitLimits) :
    (runFrom flightStep s probeUpdates).fc =
      ⟨probePid .pitch, probePid .roll, probePid .yaw, s.fc.lastUpdateUs⟩ := by
  have hp := pidSetGains_pidReset (h .pitch) .pitch
  have hr := pidSetGains_pidReset (h .roll) .roll
  have hy := pidSetGains_pidReset (h .yaw) .yaw
  rw [probeUpdates, runFrom_cons, runFrom_cons, runFrom_cons, runFrom_nil, fc_flightStep_probe,
    fc_flightStep_probe, fc_flightStep_probe, hfc, ← hp, ← hr, ← hy]
  rfl

/-- After a safety exit the datagrams and an iteration show the time step. -/
theorem observed_probe {s : Firmware CFloat} {fc : FlightController CFloat}
    (hfc : s.fc = fc.reset) (h : ∀ a, (fc.pid a).InitLimits) (now : ℕ) :
    ∃ cmds : Motor → Option ℕ,
      observed flightStep tickCommands s (probeUpdates ++ [.tick now probeSnap]) = [cmds] ∧
        cmds motorFl = some (probePulse (guardedDt (UInt32.ofNat now) s.fc.lastUpdateUs)) := by
  have hnone : observed flightStep tickCommands s probeUpdates = [] := rfl
  have hfly : ¬ probeSnap.ArmExit := by decide +kernel
  refine ⟨fun m => some (tickPulses (runFrom flightStep s probeUpdates).fc now probeSnap m), ?_, ?_⟩
  · rw [observed_append, hnone, List.nil_append, observed_cons, observed_nil, tickCommands_tick,
      Option.toList_some, List.append_nil]
  · rw [fc_probeUpdates hfc h]
    unfold tickPulses
    rw [if_neg hfly]
    rfl

/-- Two states left by safety exits whose time stamps differ are told apart. -/
theorem not_forgetsPast {s t : Firmware CFloat} {fcs fct : FlightController CFloat}
    (hs : s.fc = fcs.reset) (ht : t.fc = fct.reset) (hls : ∀ a, (fcs.pid a).InitLimits)
    (hlt : ∀ a, (fct.pid a).InitLimits) (hne : s.fc.lastUpdateUs ≠ t.fc.lastUpdateUs) (now : ℕ) :
    ¬ ForgetsPast now s t := by
  intro hforget
  have hk : 2 * (100000 : UInt32).toNat < 2 ^ 32 := by decide
  obtain ⟨v, hv⟩ := exists_sub_eq_and_lt hne hk
  obtain ⟨u, hu, rfl⟩ := exists_ofNat_eq now v
  have hchain : (now :: (probeUpdates ++ [FlightEvent.tick u probeSnap]).filterMap
      FlightEvent.reading).IsChain (· ≤ ·) := by
    show ([now, u] : List ℕ).IsChain (· ≤ ·)
    simpa using hu
  have heq := hforget _ hchain
  obtain ⟨cs, hcs, hfs⟩ := observed_probe hs hls u
  obtain ⟨ct, hct, hft⟩ := observed_probe ht hlt u
  rw [hcs, hct] at heq
  obtain rfl : cs = ct := List.head_eq_of_cons_eq heq
  have hpulse : probePulse (guardedDt (UInt32.ofNat u) s.fc.lastUpdateUs) =
      probePulse (guardedDt (UInt32.ofNat u) t.fc.lastUpdateUs) :=
    Option.some.inj (hfs.symm.trans hft)
  rcases hv with ⟨h1, h2⟩ | ⟨h1, h2⟩
  · rw [guardedDt_tenth h1, guardedDt_late h2] at hpulse
    exact probePulse_ne hpulse
  · rw [guardedDt_tenth h1, guardedDt_late h2] at hpulse
    exact probePulse_ne hpulse.symm

/-! ## Histories -/

/-- A history that ends in a safety exit. -/
abbrev tripRun (start : ℕ) (es : List (FlightEvent CFloat)) (now : ℕ) (snap : Snapshot CFloat) :
    Firmware CFloat := flightRun start (es ++ [.tick now snap])

theorem fc_tripRun {snap : Snapshot CFloat} (hx : snap.SafetyExit) (start : ℕ)
    (es : List (FlightEvent CFloat)) (now : ℕ) :
    (tripRun start es now snap).fc = (flightRun start es).fc.reset := by
  rw [tripRun, flightRun, runFrom_append, runFrom_cons, runFrom_nil]
  show (flightCtrlBody now snap _).fc = _
  rw [flightCtrlBody_of_safetyExit hx]
  rfl

theorem gains_reset (fc : FlightController CFloat) : fc.reset.gains = fc.gains := by
  funext a
  cases a <;> rfl

/-- Two histories with the same gains that end in safety exits at the same reading lead to the same
motor commands under every continuation exactly when `flight_controller_init` and
`flight_controller_update` took their latest readings at times that are equal modulo `2 ^ 32`. -/
theorem reset_forgets_iff (start₁ start₂ : ℕ) (es₁ es₂ : List (FlightEvent CFloat)) (now : ℕ)
    (snap₁ snap₂ : Snapshot CFloat) (hx₁ : snap₁.SafetyExit) (hx₂ : snap₂.SafetyExit)
    (hg : (tripRun start₁ es₁ now snap₁).fc.gains = (tripRun start₂ es₂ now snap₂).fc.gains) :
    ForgetsPast now (tripRun start₁ es₁ now snap₁) (tripRun start₂ es₂ now snap₂) ↔
      lastStamp start₁ es₁ % 2 ^ 32 = lastStamp start₂ es₂ % 2 ^ 32 := by
  have hfc₁ := fc_tripRun hx₁ start₁ es₁ now
  have hfc₂ := fc_tripRun hx₂ start₂ es₂ now
  have hlim₁ := initLimits_flightRun (F := CFloat) start₁ es₁
  have hlim₂ := initLimits_flightRun (F := CFloat) start₂ es₂
  have hstamp₁ := lastUpdateUs_flightRun (F := CFloat) start₁ es₁
  have hstamp₂ := lastUpdateUs_flightRun (F := CFloat) start₂ es₂
  rw [← UInt32.toNat_ofNat', ← UInt32.toNat_ofNat', UInt32.toNat_inj, ← hstamp₁, ← hstamp₂]
  constructor
  · intro hforget
    by_contra hne
    refine not_forgetsPast hfc₁ hfc₂ hlim₁ hlim₂ ?_ now hforget
    rw [hfc₁, hfc₂]
    exact hne
  · intro hstamp
    rw [hfc₁, hfc₂, gains_reset, gains_reset] at hg
    refine forgetsPast_of_fc_eq ?_ now
    rw [hfc₁, hfc₂]
    exact fc_safetyExit_congr hlim₁ hlim₂ hg hstamp

/-- A snapshot taken after a kill. -/
def killedSnap : Snapshot CFloat where
  pitch := ofRat 0
  roll := ofRat 0
  yawRate := ofRat 0
  throttle := escPwmArmUs
  pitchSp := ofRat 0
  rollSp := ofRat 0
  yawSp := ofRat 0
  killed := true

/-- The drone waits on the ground with its motors stopped. -/
def groundSnap : Snapshot CFloat := { killedSnap with killed := false }

theorem reset_forgets_iff_ground :
    ForgetsPast 20000 (tripRun 0 [.tick 10000 groundSnap] 20000 killedSnap)
        (tripRun 0 [.tick 10000 killedSnap] 20000 killedSnap) ↔
      lastStamp 0 [.tick 10000 groundSnap] % 2 ^ 32 = lastStamp 0 [.tick 10000 killedSnap] % 2 ^ 32 :=
  reset_forgets_iff 0 0 [.tick 10000 groundSnap] [.tick 10000 killedSnap] 20000 killedSnap killedSnap
    (by decide +kernel) (by decide +kernel) (by
      funext a
      cases a <;> decide +kernel)

/-- Two drones are killed, one after 10 ms on the ground and one from the first iteration on. With a
derivative gain set, the first iteration after the trip uses different time steps. -/
theorem reset_keeps_time_stamp :
    ¬ ∀ (start₁ start₂ : ℕ) (es₁ es₂ : List (FlightEvent CFloat)) (now : ℕ)
      (snap₁ snap₂ : Snapshot CFloat), snap₁.SafetyExit → snap₂.SafetyExit →
      (tripRun start₁ es₁ now snap₁).fc.gains = (tripRun start₂ es₂ now snap₂).fc.gains →
      ForgetsPast now (tripRun start₁ es₁ now snap₁) (tripRun start₂ es₂ now snap₂) := by
  intro h
  have hx : killedSnap.SafetyExit := by decide +kernel
  have hforget := h 0 0 [.tick 10000 groundSnap] [.tick 10000 killedSnap] 20000 killedSnap killedSnap
    hx hx (by
      funext a
      cases a <;> decide +kernel)
  refine not_forgetsPast (fc_tripRun hx 0 _ 20000) (fc_tripRun hx 0 _ 20000)
    (initLimits_flightRun 0 _) (initLimits_flightRun 0 _) ?_ 20000 hforget
  rw [fc_tripRun hx, fc_tripRun hx]
  decide +kernel

end EdnaDrone
