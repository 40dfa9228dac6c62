import EdnaDrone.Proofs.DerivativeProofs
import EdnaDrone.Proofs.GainProofs
import EdnaDrone.Proofs.InterlockProofs

/-!
# The first step after a reset

`pid_reset` sets the previous error to zero, and the derivative is taken of the error. On spool-up the
first call that mixes therefore sees the whole standing error as the change since the call before, and
adds `kd` times it, divided by a time step of about 10 ms, to the output.
-/

namespace EdnaDrone

open Lib CNum

open Lib.Flt hiding ofRat abs

section

variable {F : Type}

/-- The output of an axis that telemetry caches. -/
def TelemetryState.pidOut (t : TelemetryState F) : Axis → F
  | .pitch => t.pitchOut
  | .roll => t.rollOut
  | .yaw => t.yawOut

end

/-- The output of an axis has no derivative part: as a number it is the clamped sum of the proportional
term and of the integral term after this step. -/
def NoDerivativeJump (s s' : Firmware CFloat) (snap : Snapshot CFloat) (a : Axis) : Prop :=
  (s'.telem.pidOut a).key =
    (clampSym ((s.fc.pid a).kp * pidError (snap.setpoint a) (snap.measurement a) +
      (s.fc.pid a).ki * (s'.fc.pid a).integral) (s.fc.pid a).outputLimit).key

/-- The derivative term of a jump from no error to `error` does not show: the proportional term alone is
at the output limit, or the derivative term is less than half the gap between the proportional term and
the next binary32 number. -/
def JumpHidden (p : PidState CFloat) (error dt : CFloat) : Prop :=
  ofRat pidOutputLimit ≤ p.kp * error ∨ p.kp * error ≤ -ofRat pidOutputLimit ∨
    ((p.kd * (error / dt)).IsFinite ∧
      binary32.Swallows |(p.kp * error).val| |(p.kd * (error / dt)).val|)

/-! ## The PIDs of a run -/

section Run

variable {F : Type} [Add F] [Sub F] [Mul F] [Div F] [Neg F] [LT F] [DecidableLT F] [LE F]
  [DecidableLE F] [CNum F] {s : Firmware F}

theorem pidOut_flightCtrlBody {snap : Snapshot F} (h : ¬ snap.ArmExit) (now : ℕ) (s : Firmware F)
    (a : Axis) :
    (flightCtrlBody now snap s).telem.pidOut a =
      (pidUpdate (s.fc.pid a) (snap.setpoint a) (snap.measurement a)
        (guardedDt (UInt32.ofNat now) s.fc.lastUpdateUs)).2 := by
  rw [flightCtrlBody_of_not_armExit h]
  cases a <;> rfl

theorem pid_flightCtrlBody_armExit {snap : Snapshot F} (h : snap.ArmExit) (now : ℕ) (a : Axis) :
    (flightCtrlBody now snap s).fc.pid a = pidReset (s.fc.pid a) := by
  rcases pid_flightCtrlBody (s := s) now snap a with heq | ⟨hnot, -⟩
  · exact heq
  · exact absurd h hnot

/-- The output limit of `config.h`. -/
def PidState.ConfigLimit (p : PidState F) : Prop := p.outputLimit = ofRat pidOutputLimit

/-- A PID that keeps no error of an earlier step. -/
def PidState.NoHistory (p : PidState F) : Prop := p.prevError = ofRat 0

/-- The limits are set once the task has started, and an iteration that stops the motors leaves the PIDs
reset. -/
structure SpoolReady (s : Firmware F) : Prop where
  limits : s.task ≠ .start → ∀ a, (s.fc.pid a).ConfigLimit
  reset : ∀ snap, s.lastTick = some snap → snap.ArmExit → ∀ a, (s.fc.pid a).NoHistory

theorem SpoolReady.act (h : SpoolReady s) {snap : Snapshot F} (htask : s.task = .gotSetpoint snap)
    (now : ℕ) : SpoolReady (flightCtrlAct now s) := by
  have hstart : s.task ≠ .start := by
    rw [htask]
    exact nofun
  rw [flightCtrlAct_gotSetpoint htask]
  constructor
  · intro _ a
    have hlim := h.limits hstart a
    show ((flightCtrlBody now snap s).fc.pid a).ConfigLimit
    rcases pid_flightCtrlBody (s := s) now snap a with heq | ⟨-, heq⟩
    · rw [heq]
      exact hlim
    · rw [heq]
      exact hlim
  · intro snap' hsnap hexit a
    obtain rfl : snap = snap' := Option.some.inj hsnap
    show ((flightCtrlBody now snap s).fc.pid a).NoHistory
    rw [pid_flightCtrlBody_armExit hexit]
    rfl

variable [CText F]

theorem SpoolReady.recv (h : SpoolReady s) (src : SockAddr) (data : Bytes) :
    SpoolReady (step s (.recv src data)) := by
  obtain ⟨t, -, heq⟩ := receive_eq (s := s) src data
  simp only [step, heq]
  split
  · exact ⟨h.limits, h.reset⟩
  constructor
  · intro htask a
    have hlim := h.limits htask a
    dsimp only
    rw [pid_applyPacket]
    split
    · exact hlim
    · exact hlim
  · intro snap hsnap hexit a
    have hreset := h.reset snap hsnap hexit a
    dsimp only
    rw [pid_applyPacket]
    split
    · exact hreset
    · exact hreset

theorem SpoolReady.step (h : SpoolReady s) (e : Event F) : SpoolReady (step s e) := by
  by_cases hin : e.IsInput
  · obtain ⟨ctrl, globals, task, heq⟩ := step_input_eq (s := s) hin
    have hstart : (EdnaDrone.step s e).task ≠ .start → s.task ≠ .start := mt (task_start_input hin)
    rw [heq] at hstart ⊢
    exact ⟨fun ht => h.limits (hstart ht), h.reset⟩
  cases e with
  | fcInit now =>
    rcases htask : s.task with _ | _ | ⟨pitch, roll, yawRate⟩ | snap
    · simp only [EdnaDrone.step, flightCtrlStart, htask]
      exact ⟨fun _ a => by cases a <;> rfl, fun _ _ _ a => by cases a <;> rfl⟩
    all_goals
      simp only [EdnaDrone.step, flightCtrlStart, htask]
      exact h
  | fcAct now =>
    show SpoolReady (flightCtrlAct now s)
    by_cases htask : ∃ snap, s.task = .gotSetpoint snap
    · obtain ⟨snap, htask⟩ := htask
      exact h.act htask now
    · rw [flightCtrlAct_idle fun snap hs => htask ⟨snap, hs⟩]
      exact h
  | recv src data => exact h.recv src data
  | _ => exact absurd trivial hin

theorem spoolReady_run (sock : ℤ) (es : List (Event F)) : SpoolReady (run sock es) := by
  refine runFrom_invariant SpoolReady ⟨?_, ?_⟩ (fun _ e h => h.step e) es
  · intro h
    exact absurd rfl h
  · intro snap hsnap
    cases hsnap

/-- An iteration that mixes is a call of `pid_update` for every axis. -/
theorem pid_step_fcAct {snap : Snapshot F} (htask : s.task = .gotSetpoint snap)
    (hmix : ¬ snap.ArmExit) (now : ℕ) (a : Axis) :
    let dt := guardedDt (UInt32.ofNat now) s.fc.lastUpdateUs
    (step s (.fcAct now)).fc.pid a =
        (pidUpdate (s.fc.pid a) (snap.setpoint a) (snap.measurement a) dt).1 ∧
      (step s (.fcAct now)).telem.pidOut a =
        (pidUpdate (s.fc.pid a) (snap.setpoint a) (snap.measurement a) dt).2 := by
  show (flightCtrlAct now s).fc.pid a = _ ∧ (flightCtrlAct now s).telem.pidOut a = _
  rw [flightCtrlAct_gotSetpoint htask]
  constructor
  · show (flightCtrlBody now snap s).fc.pid a = _
    rw [flightCtrlBody_of_not_armExit hmix]
    cases a <;> rfl
  · exact pidOut_flightCtrlBody hmix now s a

end Run

theorem flightOk_run (sock : ℤ) {es : List (Event CFloat)} (h : ∀ e ∈ es, e.InputsSane) :
    FlightOk (run sock es) :=
  (allSteps_of_forall h).invariant FlightOk (flightOk_boot sock) fun _ _ he hs => flightOk_step hs he

/-! ## The first output -/

theorem HiddenByLimit.of_pos {a b limit : CFloat} (hl : ofRat 0 < limit) :
    HiddenByLimit a b limit ↔ limit ≤ a ∧ limit ≤ b ∨ a ≤ -limit ∧ b ≤ -limit := by
  have hlt : ∀ {x : CFloat}, x ≤ ofRat 0 → ¬ ofRat 0 < x := by
    intro x hle h
    exact not_lt_of_key_eq rfl (Flt.lt_of_lt_of_le h hle)
  constructor
  · rintro (⟨-, h⟩ | ⟨h, -⟩ | ⟨h, -⟩)
    · exact h
    · exact absurd hl (not_lt_of_key_eq h.key_eq.symm)
    · exact absurd hl (hlt (Flt.le_of_lt h))
  · intro h
    exact .inl ⟨hl, h⟩

/-- A term that has the direction of the proportional one is hidden by the limit where the proportional
term alone reaches it, and lost in the sum where this swallows it. -/
theorem key_clampSym_add_iff {x y limit : CFloat} (hl : ofRat 0 < limit)
    (h : ofRat 0 ≤ x ∧ ofRat 0 ≤ y ∨ x ≤ ofRat 0 ∧ y ≤ ofRat 0) :
    (clampSym (x + y) limit).key = (clampSym x limit).key ↔
      limit ≤ x ∨ x ≤ -limit ∨ (y.IsFinite ∧ binary32.Swallows |x.val| |y.val|) := by
  have hneg : -limit < ofRat 0 := neg_lt_zero_iff.2 hl
  have hcross : ∀ {a b : CFloat}, a ≤ b → ¬ b < a := by
    intro a b hle hlt
    exact not_lt_of_key_eq rfl (Flt.lt_of_lt_of_le hlt hle)
  -- the sum is on the same side of the limit and farther out
  have hfar : (limit ≤ x → limit ≤ x + y) ∧ (x ≤ -limit → x + y ≤ -limit) := by
    rcases h with ⟨hx, hy⟩ | ⟨hx, hy⟩
    · refine ⟨fun hle => Flt.le_trans hle (self_le_add hx hy), fun hle => ?_⟩
      exact absurd hneg (hcross (Flt.le_trans hx hle))
    · refine ⟨fun hle => ?_, fun hle => Flt.le_trans (add_le_self hx hy) hle⟩
      exact absurd hl (hcross (Flt.le_trans hle hx))
  have hnum : x.IsNum ∧ y.IsNum := by
    rcases h with ⟨hx, hy⟩ | ⟨hx, hy⟩
    · exact ⟨(isNum_of_le hx).2, (isNum_of_le hy).2⟩
    · exact ⟨(isNum_of_le hx).1, (isNum_of_le hy).1⟩
  have hprod : x.IsFinite → y.IsFinite → 0 ≤ x.val * y.val := by
    intro hxf hyf
    exact mul_nonneg_iff.2 (h.imp (And.imp (zero_le_iff hxf).1 (zero_le_iff hyf).1)
      (And.imp (le_zero_iff hxf).1 (le_zero_iff hyf).1))
  rw [key_clampSym_eq_iff, HiddenByLimit.of_pos hl]
  constructor
  · rintro (hkey | ⟨-, hle⟩ | ⟨-, hle⟩)
    · by_cases hxf : x.IsFinite
      · by_cases hyf : y.IsFinite
        · exact .inr (.inr ⟨hyf, (key_add_eq_iff hxf hyf (hprod hxf hyf)).1 hkey⟩)
        · exact absurd (hxf.of_key_eq hkey).1 (not_isFinite_add hxf hyf)
      · rcases h with ⟨hx, -⟩ | ⟨hx, -⟩
        · rw [eq_inf_of_nonneg hxf hx]
          exact .inl (isNum_of_lt hl).2.le_inf
        · rw [eq_inf_of_nonpos hxf hx]
          exact .inr (.inl (isNum_of_lt hneg).1.inf_le)
    · exact .inl hle
    · exact .inr (.inl hle)
  · rintro (hle | hle | ⟨hyf, hs⟩)
    · exact .inr (.inl ⟨hfar.1 hle, hle⟩)
    · exact .inr (.inr ⟨hfar.2 hle, hle⟩)
    · left
      by_cases hxf : x.IsFinite
      · exact (key_add_eq_iff hxf hyf (hprod hxf hyf)).2 hs
      · obtain ⟨t, b, rfl⟩ := hyf.exists_fin
        rcases x with _ | u | _
        · exact absurd rfl hnum.1
        · rfl
        · exact absurd trivial hxf

section Output

variable {p : PidState CFloat} {setpoint measurement dt : CFloat}

theorem SaneGain.val_nonneg {x : CFloat} (h : SaneGain x) : 0 ≤ x.val := (zero_le_iff h.1).1 h.2

theorem DtOk.val_pos (h : DtOk dt) : 0 < dt.val := by
  have hf := h.bounded.isFinite
  have hnot := (lt_iff_not_le isFinite_zero.isNum hf.isNum).1 h.pos
  exact not_le.1 fun hle => hnot ((le_zero_iff hf).2 hle)

/-- The proportional term and the derivative term of a jump have the direction of the error. -/
theorem terms_direction (hg : p.SaneGains) {error : CFloat} (he : error.IsFinite) (hd : DtOk dt)
    (hq : (error / dt).IsFinite) :
    ofRat 0 ≤ p.kp * error ∧ ofRat 0 ≤ p.kd * (error / dt) ∨
      p.kp * error ≤ ofRat 0 ∧ p.kd * (error / dt) ≤ ofRat 0 := by
  have hkp := mul_direction hg.1.1 hg.1.val_nonneg he
  have hdiv := div_direction he hd.bounded.isFinite hd.val_pos
  have hkd := mul_direction hg.2.2.1 hg.2.2.val_nonneg hq
  rcases le_total 0 error.val with h0 | h0
  · exact .inl ⟨hkp.1 h0, hkd.1 ((zero_le_iff hq).1 (hdiv.1 h0))⟩
  · exact .inr ⟨hkp.2 h0, hkd.2 ((le_zero_iff hq).1 (hdiv.2 h0))⟩

theorem PidState.NoHistory.sub_prevError (h : p.NoHistory) {error : CFloat} (he : error.IsFinite) :
    error - p.prevError = error := by
  rw [show p.prevError = ofRat 0 from h]
  exact he.sub_zero

/-- The first output of a reset PID, and what it would be without the derivative term. -/
theorem key_pidUpdate_of_noHistory (hp : PidOk p) (hg : p.SaneGains) (hhist : p.NoHistory)
    (he : Bounded 9 (pidError setpoint measurement)) (hd : DtOk dt) :
    let error := pidError setpoint measurement
    let out := pidUpdate p setpoint measurement dt
    out.2.key = (clampSym (p.kp * error + p.kd * (error / dt)) p.outputLimit).key ∧
      (clampSym (p.kp * error + p.ki * out.1.integral) p.outputLimit).key =
        (clampSym (p.kp * error) p.outputLimit).key := by
  intro error out
  have hP : (p.kp * error).IsNum := hg.1.1.mul_isNum he.isFinite
  have hI : (p.ki * pidIntegral p error dt).IsZero := hg.2.1.1.mul_isZero (isZero_pidIntegral hp he hd)
  have hPI : (p.kp * error + p.ki * pidIntegral p error dt).key = (p.kp * error).key :=
    key_add_isZero hP hI
  have hD : pidDTerm p error dt = p.kd * (error / dt) := by
    unfold pidDTerm
    rw [if_pos hd.pos, hhist.sub_prevError he.isFinite]
  refine ⟨?_, key_clampSym _ hPI⟩
  refine key_clampSym p.outputLimit ?_
  show (p.kp * error + p.ki * pidIntegral p error dt + pidDTerm p error dt).key = _
  rw [key_add_congr _ hPI, hD]

end Output

/-- In every run, at the first iteration that mixes after one that stopped the motors: an axis gets no
derivative jump exactly when the proportional term alone is at the output limit or the derivative term
is lost in the sum. -/
theorem no_derivative_jump_iff (sock : ℤ) {es : List (Event CFloat)} (hes : ∀ e ∈ es, e.InputsSane)
    (now : ℕ) {snap snap₀ : Snapshot CFloat} (htask : (run sock es).task = .gotSetpoint snap)
    (hmix : ¬ snap.ArmExit) (hlast : (run sock es).lastTick = some snap₀) (hreset : snap₀.ArmExit)
    (hgains : GainsSane (run sock es)) (a : Axis) :
    NoDerivativeJump (run sock es) (step (run sock es) (.fcAct now)) snap a ↔
      JumpHidden ((run sock es).fc.pid a) (pidError (snap.setpoint a) (snap.measurement a))
        (guardedDt (UInt32.ofNat now) (run sock es).fc.lastUpdateUs) := by
  have hok := flightOk_run sock hes
  have hready := spoolReady_run sock es
  generalize run sock es = s at *
  have hp := hok.pids a
  have hg := hgains a
  have he := (hok.snapshotOk htask).bounded_error hmix a
  have hd := dtOk_guardedDt (UInt32.ofNat now) s.fc.lastUpdateUs
  have hhist := hready.reset snap₀ hlast hreset a
  have hlim : (s.fc.pid a).outputLimit = ofRat pidOutputLimit := by
    refine hready.limits ?_ a
    rw [htask]
    exact nofun
  obtain ⟨hpid, hout⟩ := pid_step_fcAct htask hmix now a
  obtain ⟨hkey, hkey₀⟩ := key_pidUpdate_of_noHistory hp hg hhist he hd
  have hq : (pidError (snap.setpoint a) (snap.measurement a) /
      guardedDt (UInt32.ofNat now) s.fc.lastUpdateUs).IsFinite := by
    have hder := (bounded_derivative hp he hd).isFinite
    rwa [hhist.sub_prevError he.isFinite] at hder
  unfold NoDerivativeJump JumpHidden
  rw [hout, hpid, hkey, hkey₀, hlim]
  exact key_clampSym_add_iff (by decide +kernel) (terms_direction hg he.isFinite hd hq)

/-- A packet sets a derivative gain, the drone stands tilted by 1.3° while the throttle is low, and the
pilot raises the throttle. -/
def spoolUpStart : List (Event CFloat) :=
  [.fcInit 0, .recv ⟨1, 1⟩ tuneDatagram, .imu (ofRat 1) (ofRat 12) (gyroDps 0) true,
    .fcTakeImu true, .fcTakeSetpoint true, .fcAct 10000, .gamepad climbFrame true]

/-- The next iteration is about to mix. -/
def spoolUpRun : List (Event CFloat) := spoolUpStart ++ [.fcTakeImu true, .fcTakeSetpoint true]

def spoolUpSnap : Snapshot CFloat :=
  let g := (run 3 spoolUpStart).globals
  g.snapshot g.pitchDeg g.rollDeg g.yawRate

theorem task_spoolUp : (run 3 spoolUpRun).task = .gotSetpoint spoolUpSnap := by
  have hwait : (run 3 spoolUpStart).task = .wait := rfl
  unfold spoolUpRun
  rw [run, runFrom_append]
  exact task_takes hwait

theorem inputsSane_spoolUp : ∀ e ∈ spoolUpRun, e.InputsSane := by
  have himu : (ofRat 1 : CFloat).IsNum ∧ (ofRat 12 : CFloat).IsNum ∧
      ∃ raw : ℤ, (-2 ^ 15 ≤ raw ∧ raw < 2 ^ 15) ∧ (gyroDps 0 : CFloat) = gyroDps raw :=
    ⟨ofSign_isNum _ _, ofSign_isNum _ _, 0, by norm_num, rfl⟩
  simpa [spoolUpRun, spoolUpStart, Event.InputsSane, UniGamepad.InRange, climbFrame] using himu

theorem gainsSane_spoolUp : GainsSane (run 3 spoolUpRun) := by
  intro a
  unfold PidState.SaneGains SaneGain
  cases a <;> decide +kernel

/-- The roll PID has no derivative gain, so there is nothing to hide. -/
theorem no_derivative_jump_iff_tuned :
    NoDerivativeJump (run 3 spoolUpRun) (step (run 3 spoolUpRun) (.fcAct 20000)) spoolUpSnap .roll :=
  (no_derivative_jump_iff 3 inputsSane_spoolUp 20000 task_spoolUp (by decide +kernel) rfl
    (by decide +kernel) gainsSane_spoolUp .roll).2
      (.inr (.inr ⟨by decide +kernel, by decide +kernel⟩))

/-- With `kp = 1.5` and `kd = 0.02` the first pitch output is -4.55, and -1.95 of it is the proportional
term. -/
theorem derivative_jumps_on_spool_up :
    ¬ ∀ (sock : ℤ) (es : List (Event CFloat)) (now : ℕ) (snap snap₀ : Snapshot CFloat),
      (∀ e ∈ es, e.InputsSane) → (run sock es).task = .gotSetpoint snap → ¬ snap.ArmExit →
      (run sock es).lastTick = some snap₀ → snap₀.ArmExit → GainsSane (run sock es) →
      ∀ a, NoDerivativeJump (run sock es) (step (run sock es) (.fcAct now)) snap a := by
  intro h
  have h1 := h 3 spoolUpRun 20000 spoolUpSnap _ inputsSane_spoolUp task_spoolUp
    (by decide +kernel) rfl (by decide +kernel) gainsSane_spoolUp .pitch
  unfold NoDerivativeJump at h1
  revert h1
  decide +kernel

end EdnaDrone
