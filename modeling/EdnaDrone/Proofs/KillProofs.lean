import EdnaDrone.Proofs.StepProofs

/-!
# Kills and the ticks after them

A kill is a gamepad frame with `BUTTON_X` or a disconnect. `on_gamepad_data` tries `setpoint_mutex`
without waiting and `on_disconnected` for 10 ms; a kill that does not get the mutex leaves the
shared setpoints as they were, and the flight task goes on with them. A kill that gets it puts the
shared state into `Grounded`, which every step but a normal frame keeps.
-/

namespace EdnaDrone

open Lib CNum

variable {F : Type} {s : Firmware F}

/-! ## The events the law is about -/

/-- A frame with `BUTTON_X`, or a disconnect. -/
def Event.IsKill : Event F → Prop
  | .gamepad ctl _ => ctl.pressesX = true
  | .disconnected _ => True
  | _ => False

def Event.IsNormalFrame : Event F → Prop
  | .gamepad ctl _ => ctl.pressesX = false
  | _ => False

/-- The acquisition of `setpoint_mutex` in a gamepad callback succeeds. -/
def Event.GetsMutex : Event F → Prop
  | .gamepad _ take => take = true
  | .disconnected take => take = true
  | _ => True

/-- The shared state makes an iteration of the flight task stop the motors. -/
def Globals.Grounded (g : Globals F) : Prop :=
  g.motorsKilled = true ∨ g.throttle ≤ escPwmSpinUs

/-- The condition on a step: a kill gets the mutex, or finds the craft grounded already. -/
def KillEffective (s : Firmware F) (e : Event F) : Prop :=
  e.IsKill → e.GetsMutex ∨ s.globals.Grounded

/-- The flight task is about to take its setpoint snapshot. -/
def FcTask.awaitsSetpoint : FcTask F → Bool
  | .gotImu _ _ _ => true
  | _ => false

def Snapshot.Grounded (snap : Snapshot F) : Prop :=
  snap.killed = true ∨ snap.throttle ≤ escPwmSpinUs

/-! ## A grounded snapshot stops the motors -/

theorem escArmAll_calls : (escArmAll s).esc.calls = armCalls ++ s.esc.calls := by
  show (escSetAllUs (fun _ => .ok) escPwmArmUs s.esc).calls = _
  rw [escSetAllUs_calls, armCalls]

variable [CNum F]

theorem Globals.kill_grounded (g : Globals F) : g.kill.Grounded := Or.inl rfl

/-- The kill under a timed mutex. -/
theorem Globals.timed_kill_grounded {g : Globals F} {take : Bool} (h : take = true ∨ g.Grounded) :
    (if take then g.kill else g).Grounded := by
  rcases h with rfl | h
  · exact g.kill_grounded
  · split
    · exact g.kill_grounded
    · exact h

variable [Add F] [Sub F] [Mul F] [Div F] [Neg F] [LT F] [DecidableLT F] [LE F] [DecidableLE F]

/-- The iteration of a grounded snapshot commands the arm pulse, on whichever of its exits. -/
theorem flightCtrlBody_calls_of_grounded {snap : Snapshot F} (h : snap.Grounded) (now : ℕ) :
    (flightCtrlBody now snap s).esc.calls = armCalls ++ s.esc.calls := by
  unfold flightCtrlBody
  by_cases hk : snap.killed = true
  · rw [if_pos hk]
    exact escArmAll_calls
  rw [if_neg hk]
  by_cases ha : snap.angleExceeded
  · rw [if_pos ha]
    exact escArmAll_calls
  rw [if_neg ha]
  have ht : snap.throttle ≤ escPwmSpinUs := h.resolve_left hk
  simp only [flightControllerUpdate, if_pos ht]
  exact escArmAll_calls

theorem flightCtrlAct_calls {snap : Snapshot F} (hs : s.task = .gotSetpoint snap) (now : ℕ) :
    (flightCtrlAct now s).esc.calls = (flightCtrlBody now snap s).esc.calls := by
  simp only [flightCtrlAct, hs]

variable [CText F]

/-! ## A kill grounds the craft, and it stays grounded -/

theorem kill_grounds {e : Event F} (he : e.IsKill) (h : KillEffective s e) :
    (step s e).globals.Grounded := by
  have h' := h he
  cases e with
  | gamepad ctl take =>
    have hx : ctl.pressesX = true := he
    simp only [step, onGamepadData, hx, if_true]
    exact Globals.timed_kill_grounded h'
  | disconnected take => exact Globals.timed_kill_grounded h'
  | _ => exact he.elim

/-- Every step but a normal frame keeps the craft grounded. -/
theorem grounded_step {e : Event F} (hs : s.globals.Grounded) (he : ¬ e.IsNormalFrame) :
    (step s e).globals.Grounded := by
  by_cases h1 : ∃ ctl take, e = .gamepad ctl take
  · obtain ⟨ctl, take, rfl⟩ := h1
    have hx : ctl.pressesX = true := by
      by_contra hx
      exact he (by simpa [Event.IsNormalFrame] using hx)
    simp only [step, onGamepadData, hx, if_true]
    split
    · exact s.globals.kill_grounded
    · exact hs
  by_cases h2 : ∃ take, e = .disconnected take
  · obtain ⟨take, rfl⟩ := h2
    simp only [step, onDisconnected]
    split
    · exact s.globals.kill_grounded
    · exact hs
  push Not at h1 h2
  obtain ⟨-, p, r, y, h⟩ := setpoints_frame (s := s) h1 h2
  rw [h]
  exact hs

theorem grounded_run {es : List (Event F)} (hs : s.globals.Grounded)
    (hes : ∀ e ∈ es, ¬ e.IsNormalFrame) : (runFrom step s es).globals.Grounded :=
  (allSteps_of_forall hes).invariant (fun s : Firmware F => s.globals.Grounded) hs
    fun _ _ he hs => grounded_step hs he

/-! ## The tick after a kill -/

theorem task_gotSetpoint_run {snap : Snapshot F} {es : List (Event F)}
    (hs : s.task = .gotSetpoint snap) (hes : ∀ e ∈ es, ¬ e.IsAct) :
    (runFrom step s es).task = .gotSetpoint snap :=
  (allSteps_of_forall hes).invariant (fun s : Firmware F => s.task = .gotSetpoint snap) hs
    fun _ _ he hs => task_gotSetpoint_step hs he

theorem takeSetpoint_grounded (hs : s.globals.Grounded) (ht : s.task.awaitsSetpoint) :
    ∃ snap : Snapshot F, snap.Grounded ∧
      (step s (.fcTakeSetpoint true)).task = .gotSetpoint snap := by
  cases hst : s.task with
  | gotImu pitch roll yawRate =>
    refine ⟨s.globals.snapshot pitch roll yawRate, hs, ?_⟩
    simp [step, flightCtrlTakeSetpoint, hst]
  | _ =>
    rw [hst] at ht
    exact absurd ht (by simp [FcTask.awaitsSetpoint])

/-- A tick that takes its snapshot while the craft is grounded commands the arm pulse, whatever
happens between the snapshot and the command. -/
theorem tick_arms_of_grounded {es : List (Event F)} (hs : s.globals.Grounded)
    (ht : s.task.awaitsSetpoint) (hes : ∀ e ∈ es, ¬ e.IsAct) (now : ℕ) :
    (runFrom step s (.fcTakeSetpoint true :: (es ++ [.fcAct now]))).esc.calls =
      armCalls ++ (runFrom step s (.fcTakeSetpoint true :: es)).esc.calls := by
  obtain ⟨snap, hsnap, h1⟩ := takeSetpoint_grounded hs ht
  have h2 := task_gotSetpoint_run h1 hes
  rw [runFrom_cons, runFrom_cons, runFrom_append, runFrom_cons, runFrom_nil]
  show (flightCtrlAct now _).esc.calls = _
  rw [flightCtrlAct_calls h2, flightCtrlBody_calls_of_grounded hsnap]

/-! ## The law -/

/-- The law for one run: after the kill, the tick that takes its snapshot before the next normal
frame commands the arm pulse to all four motors, whatever happens between the snapshot and the
command. -/
def KillHolds (sock : ℤ) (es₁ : List (Event F)) (kill : Event F) (es₂ es₃ : List (Event F))
    (now : ℕ) : Prop :=
  kill.IsKill → (∀ e ∈ es₂, ¬ e.IsNormalFrame) →
  (run sock (es₁ ++ kill :: es₂)).task.awaitsSetpoint → (∀ e ∈ es₃, ¬ e.IsAct) →
  (run sock (es₁ ++ kill :: (es₂ ++ .fcTakeSetpoint true :: (es₃ ++ [.fcAct now])))).esc.calls =
    armCalls ++ (run sock (es₁ ++ kill :: (es₂ ++ .fcTakeSetpoint true :: es₃))).esc.calls

/-- In every run whose kills each get the mutex (or find the craft grounded), no kill is lost. -/
theorem kill_never_lost (sock : ℤ) (es₁ : List (Event F)) (kill : Event F)
    (es₂ es₃ : List (Event F)) (now : ℕ)
    (h : AllSteps step KillEffective (boot sock)
      (es₁ ++ kill :: (es₂ ++ .fcTakeSetpoint true :: (es₃ ++ [.fcAct now])))) :
    KillHolds sock es₁ kill es₂ es₃ now := by
  intro hkill hes₂ htask hes₃
  rw [allSteps_append, allSteps_cons] at h
  have h1 : (step (run sock es₁) kill).globals.Grounded := kill_grounds hkill h.2.1
  have h2 : (run sock (es₁ ++ kill :: es₂)).globals.Grounded := by
    rw [run, runFrom_append, runFrom_cons]
    exact grounded_run h1 hes₂
  have heq : ∀ fs, run sock (es₁ ++ kill :: (es₂ ++ fs)) =
      runFrom step (run sock (es₁ ++ kill :: es₂)) fs := by
    intro fs
    simp [run]
  rw [heq, heq]
  exact tick_arms_of_grounded h2 htask hes₃ now

/-! ## Runs with a kill -/

def climbFrame : UniController := ⟨.gamepad, ⟨0, -512, 0, 0, 0⟩⟩

def killFrame : UniController := ⟨.gamepad, ⟨0, 0, 0, 0, 4⟩⟩

/-- The stick is pushed up for one frame, the pilot presses X, and the flight task goes on. -/
theorem kill_never_lost_climb :
    (run (F := CFloat) 3 [.fcInit 0, .gamepad climbFrame true, .gamepad killFrame true,
        .fcTakeImu true, .fcTakeSetpoint true, .gamepad climbFrame true, .fcAct 10000]).esc.calls =
      armCalls ++ (run (F := CFloat) 3 [.fcInit 0, .gamepad climbFrame true,
        .gamepad killFrame true, .fcTakeImu true, .fcTakeSetpoint true,
        .gamepad climbFrame true]).esc.calls :=
  kill_never_lost 3 [.fcInit 0, .gamepad climbFrame true] (.gamepad killFrame true)
    [.fcTakeImu true] [.gamepad climbFrame true] 10000
    (by simp [KillEffective, Event.IsKill, Event.GetsMutex]) rfl
    (by simp [Event.IsNormalFrame]) (by decide +kernel) (by simp [Event.IsAct])

/-- The same with `setpoint_mutex` held by another task when the X frame arrives: the next tick
commands 1202 µs to every motor. -/
theorem kill_lost_when_contended :
    ¬ ∀ (sock : ℤ) (es₁ : List (Event CFloat)) (kill : Event CFloat) (es₂ es₃ : List (Event CFloat))
      (now : ℕ), KillHolds sock es₁ kill es₂ es₃ now := by
  intro h
  have h1 := h 3 [.fcInit 0, .gamepad climbFrame true] (.gamepad killFrame false)
    [.fcTakeImu true] [] 10000 rfl (by simp [Event.IsNormalFrame]) (by decide +kernel) (by simp)
  revert h1
  decide +kernel

end EdnaDrone
