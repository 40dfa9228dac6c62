import EdnaDrone.Proofs.KillProofs

/-!
# What telemetry reports about the motors

`flight_controller_update` caches the motor values for telemetry on its mixing branch only. The
three other ways an iteration commands motors (a kill, the angle cutoff, a low throttle) leave the
cache as it was, so the report stays true exactly in the runs that take one of these exits only
while the cache already holds the arm pulse.
-/

namespace EdnaDrone

open Lib CNum

variable {F : Type} {s : Firmware F}

/-- The reported motor values are the pulses last commanded. -/
def ReportsMotors (s : Firmware F) : Prop :=
  s.esc.lastCommanded motorFl = some s.report.mFl ∧ s.esc.lastCommanded motorFr = some s.report.mFr ∧
    s.esc.lastCommanded motorRl = some s.report.mRl ∧ s.esc.lastCommanded motorRr = some s.report.mRr

def ReportsArm (s : Firmware F) : Prop :=
  s.report.mFl = escPwmArmUs ∧ s.report.mFr = escPwmArmUs ∧ s.report.mRl = escPwmArmUs ∧
    s.report.mRr = escPwmArmUs

theorem reportsMotors_of_calls {m1 m2 m3 m4 : ℕ} {cs : List (Motor × ℕ)}
    (h : s.esc.calls = motorCalls m1 m2 m3 m4 ++ cs) :
    ReportsMotors s ↔
      s.report.mFl = m1 ∧ s.report.mFr = m2 ∧ s.report.mRl = m3 ∧ s.report.mRr = m4 := by
  unfold ReportsMotors
  simp only [lastCommanded_of_calls h, Option.some.injEq]
  constructor
  · rintro ⟨h1, h2, h3, h4⟩
    exact ⟨h1.symm, h2.symm, h3.symm, h4.symm⟩
  · rintro ⟨h1, h2, h3, h4⟩
    exact ⟨h1.symm, h2.symm, h3.symm, h4.symm⟩

variable [CNum F]

theorem reportsMotors_boot (sock : ℤ) : ReportsMotors (boot sock : Firmware F) := by
  have hc : (boot sock : Firmware F).esc.calls = armCalls ++ escInit.calls :=
    escSetAllUs_calls _
  rw [reportsMotors_of_calls hc]
  exact ⟨rfl, rfl, rfl, rfl⟩

variable [Add F] [Sub F] [Mul F] [Div F] [Neg F] [LT F] [DecidableLT F]

def mixedMotors (dt : F) (snap : Snapshot F) (fc : FlightController F) : MotorOutputs :=
  motorMix snap.throttle (pidUpdate fc.pidPitch snap.pitchSp snap.pitch dt).2
    (pidUpdate fc.pidRoll snap.rollSp snap.roll dt).2
    (pidUpdate fc.pidYaw snap.yawSp snap.yawRate dt).2

theorem flightControllerMix_calls (dt : F) (snap : Snapshot F) :
    (flightControllerMix dt snap s).esc.calls =
      motorCalls (mixedMotors dt snap s.fc).fl (mixedMotors dt snap s.fc).fr
        (mixedMotors dt snap s.fc).rl (mixedMotors dt snap s.fc).rr ++ s.esc.calls := by
  show (escSetMotorsUs (fun _ => .ok) _ _ _ _ s.esc).calls = _
  rw [escSetMotorsUs_calls]
  rfl

variable [LE F] [DecidableLE F]

/-- The iteration of this snapshot stops the motors: killed, tilted too far, or low throttle. -/
def Snapshot.ArmExit (snap : Snapshot F) : Prop :=
  snap.killed = true ∨ snap.angleExceeded ∨ snap.throttle ≤ escPwmSpinUs

instance (snap : Snapshot F) : Decidable snap.ArmExit :=
  inferInstanceAs (Decidable (snap.killed = true ∨ snap.angleExceeded ∨ snap.throttle ≤ escPwmSpinUs))

/-! ## The two kinds of iterations -/

theorem flightControllerUpdate_low {snap : Snapshot F} (h : snap.throttle ≤ escPwmSpinUs) (now : ℕ) :
    (flightControllerUpdate now snap s).esc.calls = armCalls ++ s.esc.calls ∧
      (flightControllerUpdate now snap s).telem = s.telem := by
  simp only [flightControllerUpdate, if_pos h]
  exact ⟨escArmAll_calls, rfl⟩

/-- An iteration that stops the motors commands the arm pulse and leaves the telemetry cache. -/
theorem flightCtrlBody_armExit {snap : Snapshot F} (h : snap.ArmExit) (now : ℕ) :
    (flightCtrlBody now snap s).esc.calls = armCalls ++ s.esc.calls ∧
      (flightCtrlBody now snap s).telem = s.telem := by
  unfold flightCtrlBody
  by_cases hk : snap.killed = true
  · rw [if_pos hk]
    exact ⟨escArmAll_calls, rfl⟩
  rw [if_neg hk]
  by_cases ha : snap.angleExceeded
  · rw [if_pos ha]
    exact ⟨escArmAll_calls, rfl⟩
  rw [if_neg ha]
  have ht : snap.throttle ≤ escPwmSpinUs := by
    rcases h with h | h | h
    · exact absurd h hk
    · exact absurd h ha
    · exact h
  simp only [if_pos ht]
  exact flightControllerUpdate_low ht now

/-- An iteration that flies is the mixing branch, after the time stamp is taken. -/
theorem flightCtrlBody_of_not_armExit {snap : Snapshot F} (h : ¬ snap.ArmExit) (now : ℕ) :
    flightCtrlBody now snap s =
      flightControllerMix (guardedDt (UInt32.ofNat now) s.fc.lastUpdateUs) snap
        { s with fc := { s.fc with lastUpdateUs := UInt32.ofNat now } } := by
  unfold Snapshot.ArmExit at h
  push Not at h
  obtain ⟨hk, ha, ht⟩ := h
  unfold flightCtrlBody
  rw [if_neg hk, if_neg ha]
  simp only [if_neg ht.not_ge, flightControllerUpdate]

/-- An iteration that flies commands some pulses and caches the same ones. -/
theorem flightCtrlBody_mix {snap : Snapshot F} (h : ¬ snap.ArmExit) (now : ℕ) :
    ∃ m : MotorOutputs,
      (flightCtrlBody now snap s).esc.calls = motorCalls m.fl m.fr m.rl m.rr ++ s.esc.calls ∧
        (flightCtrlBody now snap s).report.mFl = m.fl ∧
        (flightCtrlBody now snap s).report.mFr = m.fr ∧
        (flightCtrlBody now snap s).report.mRl = m.rl ∧
        (flightCtrlBody now snap s).report.mRr = m.rr := by
  rw [flightCtrlBody_of_not_armExit h]
  exact ⟨_, flightControllerMix_calls _ snap, rfl, rfl, rfl, rfl⟩

variable [CText F]

/-- The condition on a step: an iteration that stops the motors finds the arm pulse reported. -/
def KeepsReport (s : Firmware F) (e : Event F) : Prop :=
  e.IsAct → ∀ snap, s.task = .gotSetpoint snap → snap.ArmExit → ReportsArm s

/-! ## One step -/

/-- An iteration that ends at the arm pulse reports truly exactly when arm pulses are reported. -/
theorem reportsMotors_arm {snap : Snapshot F} (htask : s.task = .gotSetpoint snap)
    (hx : snap.ArmExit) (now : ℕ) : ReportsMotors (step s (.fcAct now)) ↔ ReportsArm s := by
  have hb := flightCtrlBody_armExit (s := s) hx now
  have hc : (step s (.fcAct now)).esc.calls = armCalls ++ s.esc.calls := by
    simpa only [step, flightCtrlAct, htask] using hb.1
  have ht : (step s (.fcAct now)).telem = s.telem := by
    simpa only [step, flightCtrlAct, htask] using hb.2
  rw [reportsMotors_of_calls hc]
  simp only [ReportsArm, Firmware.report, ht]

/-- An iteration that mixes reports what it commands. -/
theorem reportsMotors_mix {snap : Snapshot F} (htask : s.task = .gotSetpoint snap)
    (hx : ¬ snap.ArmExit) (now : ℕ) : ReportsMotors (step s (.fcAct now)) := by
  obtain ⟨m, hc, h1, h2, h3, h4⟩ := flightCtrlBody_mix (s := s) hx now
  have hc' : (step s (.fcAct now)).esc.calls =
      motorCalls m.fl m.fr m.rl m.rr ++ s.esc.calls := by
    simpa only [step, flightCtrlAct, htask] using hc
  rw [reportsMotors_of_calls hc']
  simp only [step, flightCtrlAct, htask]
  exact ⟨h1, h2, h3, h4⟩

/-- A step keeps a true report true exactly when it meets the condition. -/
theorem reportsMotors_step {e : Event F} (hs : ReportsMotors s) :
    ReportsMotors (step s e) ↔ KeepsReport s e := by
  by_cases he : e.IsAct
  · cases e with
    | fcAct now =>
      cases htask : s.task with
      | gotSetpoint snap =>
        by_cases hx : snap.ArmExit
        · rw [reportsMotors_arm htask hx]
          constructor
          · intro h _ _ _ _
            exact h
          · intro h
            exact h trivial snap htask hx
        · refine iff_of_true (reportsMotors_mix htask hx now) ?_
          intro _ snap' h' hx'
          rw [htask] at h'
          cases h'
          exact absurd hx' hx
      | _ =>
        have hst : step s (.fcAct now) = s := by simp only [step, flightCtrlAct, htask]
        rw [hst]
        refine iff_of_true hs ?_
        intro _ snap' h'
        rw [htask] at h'
        cases h'
    | _ => exact he.elim
  · obtain ⟨h0, -, h1, h2, h3, h4⟩ := motors_frame (s := s) he
    refine iff_of_true ?_ fun h => absurd h he
    unfold ReportsMotors Firmware.report
    rw [h0, h1, h2, h3, h4]
    exact hs

/-! ## Runs -/

/-- The report is true in every state of a run exactly when every iteration of the run that stops
the motors finds the arm pulse reported. -/
theorem report_true_iff (sock : ℤ) (es : List (Event F)) :
    (∀ n, ReportsMotors (run sock (es.take n))) ↔ AllSteps step KeepsReport (boot sock) es :=
  (allSteps_iff_along ReportsMotors (reportsMotors_boot sock)
    (fun _ _ hs => reportsMotors_step hs) es).symm

instance (s : Firmware F) : Decidable (ReportsMotors s) := by
  unfold ReportsMotors; infer_instance

/-- After a climb and a kill that gets the mutex, the motors are at the arm pulse and the report
says 1202 µs. -/
theorem report_stale_after_kill :
    ¬ ∀ (sock : ℤ) (es : List (Event CFloat)), ReportsMotors (run sock es) := by
  intro h
  have h1 := h 3 [.fcInit 0, .gamepad climbFrame true, .fcTakeImu true, .fcTakeSetpoint true,
    .fcAct 10000, .gamepad killFrame true, .fcTakeImu true, .fcTakeSetpoint true, .fcAct 20000]
  revert h1
  decide +kernel

end EdnaDrone
