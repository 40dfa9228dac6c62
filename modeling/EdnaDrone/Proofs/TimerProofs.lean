import EdnaDrone.Lib.WrapClock
import EdnaDrone.Proofs.FloatProofs
import EdnaDrone.Proofs.KalmanProofs
import EdnaDrone.Proofs.StepProofs

/-!
# The time steps of the two loops

`imu_task` and `flight_controller_update` each keep the low 32 bits of their latest timer reading and
take the time since then from the next one. In exact arithmetic that is the true time up to 0.1 s,
whether the counter wraps or not, and in C's `float` it is the true time, rounded. The reading that `imu_task` keeps is that of its latest iteration,
successful or not, so the time before a failed read is lost to the filters.
-/

namespace EdnaDrone

open Lib CNum

section Model

variable {F : Type}

/-! ## `imu_task` -/

/-- One iteration: the timer reading, and what `mpu6050_read` returns. -/
structure ImuIteration (F : Type) where
  now : ℕ
  raw : Option (Mpu6050Data F)

/-- The latest reading of a sequence of iterations. -/
def lastReading (start : ℕ) (es : List (ImuIteration F)) : ℕ :=
  (es.map ImuIteration.now).getLastD start

theorem getLast?_readings (start : ℕ) (es : List (ImuIteration F)) :
    (start :: es.map ImuIteration.now).getLast? = some (lastReading start es) := by
  rw [List.getLast?_cons, lastReading, List.getLastD_eq_getLast?]

section

variable [Add F] [Sub F] [Mul F] [Div F] [LT F] [DecidableLT F] [LE F] [DecidableLE F] [CNum F]

def imuTaskStep (t : ImuTask F) (e : ImuIteration F) : ImuTask F :=
  (imuTaskIteration t (UInt32.ofNat e.now) e.raw).1

/-- The local variables after a sequence of iterations; `start` is the reading before the loop. -/
abbrev imuTaskRun (start : ℕ) (es : List (ImuIteration F)) : ImuTask F :=
  runFrom imuTaskStep (imuTaskStart (UInt32.ofNat start)) es

/-- The time step of an iteration. -/
def imuTaskDt (t : ImuTask F) (now : ℕ) : F := guardedDt (UInt32.ofNat now) t.lastUs

/-- An iteration whose read succeeds passes its time step to both filters. -/
def ImuTask.PassesDt (t : ImuTask F) (now : ℕ) (raw : Mpu6050Data F) : Prop :=
  imuTaskIteration t (UInt32.ofNat now) (some raw) =
    let pitch := kalmanUpdate t.kfRoll raw.accelAnglePitch raw.gyroXDps (imuTaskDt t now)
    let roll := kalmanUpdate t.kfPitch raw.accelAngleRoll raw.gyroYDps (imuTaskDt t now)
    (⟨roll.1, pitch.1, UInt32.ofNat now⟩, some ⟨pitch.2, roll.2, raw.gyroZDps⟩)

theorem ImuTask.passesDt (t : ImuTask F) (now : ℕ) (raw : Mpu6050Data F) : t.PassesDt now raw := rfl

theorem lastUs_imuTaskStep (t : ImuTask F) (e : ImuIteration F) :
    (imuTaskStep t e).lastUs = UInt32.ofNat e.now := by
  unfold imuTaskStep imuTaskIteration
  rcases e.raw with _ | raw
  · rfl
  · rfl

theorem lastUs_imuTaskRun (start : ℕ) (es : List (ImuIteration F)) :
    (imuTaskRun start es).lastUs = UInt32.ofNat (lastReading start es) := by
  rcases List.eq_nil_or_concat es with rfl | ⟨es, e, rfl⟩
  · rfl
  · rw [imuTaskRun, List.concat_eq_append, runFrom_append, runFrom_cons, runFrom_nil,
      lastUs_imuTaskStep, lastReading, List.map_append, List.map_singleton, List.getLastD_concat]

end

/-! ## `flight_controller_update` -/

/-- The stored time stamp is that of the latest reading; there is one once the task has started. -/
structure StampsLatest (readings : List ℕ) (s : Firmware F) : Prop where
  latest : ∀ t, readings.getLast? = some t → s.fc.lastUpdateUs = UInt32.ofNat t
  started : readings = [] → s.task = .start

theorem StampsLatest.keep {readings : List ℕ} {s s' : Firmware F} (h : StampsLatest readings s)
    (hfc : s'.fc.lastUpdateUs = s.fc.lastUpdateUs) (htask : s.task = .start → s'.task = .start) :
    StampsLatest readings s' :=
  ⟨fun t ht => hfc.trans (h.latest t ht), fun ht => htask (h.started ht)⟩

theorem stampsLatest_concat {readings : List ℕ} {s : Firmware F} {now : ℕ}
    (h : s.fc.lastUpdateUs = UInt32.ofNat now) : StampsLatest (readings ++ [now]) s := by
  constructor
  · intro t ht
    rw [List.getLast?_concat, Option.some.injEq] at ht
    rw [h, ht]
  · intro hnil
    exact absurd hnil (by simp)

variable [LT F] [DecidableLT F] [CNum F]

theorem lastUpdateUs_applyPacket (p : PidPacket F) (fc : FlightController F) :
    (applyPacket p fc).lastUpdateUs = fc.lastUpdateUs := by
  unfold applyPacket
  split
  · rfl
  split
  · rename_i a _
    cases a <;> rfl
  · rfl

variable [Neg F]

/-- The iteration of this snapshot ends before it calls `flight_controller_update`. -/
def Snapshot.SafetyExit (snap : Snapshot F) : Prop := snap.killed = true ∨ snap.angleExceeded

instance (snap : Snapshot F) : Decidable snap.SafetyExit :=
  inferInstanceAs (Decidable (_ ∨ _))

/-- The reading that a step takes in `flight_controller_init` or `flight_controller_update`. -/
def Firmware.timerReading (s : Firmware F) : Event F → Option ℕ
  | .fcInit now =>
    match s.task with
    | .start => some now
    | _ => none
  | .fcAct now =>
    match s.task with
    | .gotSetpoint snap => if snap.SafetyExit then none else some now
    | _ => none
  | _ => none

theorem timerReading_act {s : Firmware F} {snap : Snapshot F} (h : s.task = .gotSetpoint snap)
    (now : ℕ) : s.timerReading (.fcAct now) = if snap.SafetyExit then none else some now := by
  unfold Firmware.timerReading
  rw [h]

theorem timerReading_idle {s : Firmware F} (h : ∀ snap, s.task ≠ .gotSetpoint snap) (now : ℕ) :
    s.timerReading (.fcAct now) = none := by
  unfold Firmware.timerReading
  dsimp only
  split
  · rename_i snap htask
    exact absurd htask (h snap)
  · rfl

theorem timerReading_input {e : Event F} (he : e.IsInput) (s : Firmware F) :
    s.timerReading e = none := by
  cases e with
  | fcInit now => exact he.elim
  | fcAct now => exact he.elim
  | _ => rfl

variable [Add F] [Sub F] [Mul F] [Div F] [LE F] [DecidableLE F]

/-- The time step of a call of `flight_controller_update`. -/
def flightControllerDt (s : Firmware F) (now : ℕ) : F :=
  guardedDt (UInt32.ofNat now) s.fc.lastUpdateUs

/-- A call that mixes passes its time step to the three PIDs. -/
theorem flightControllerUpdate_of_lt {snap : Snapshot F} (h : (escPwmSpinUs : ℤ) < snap.throttle)
    (now : ℕ) (s : Firmware F) :
    flightControllerUpdate now snap s = flightControllerMix (flightControllerDt s now) snap
      { s with fc := { s.fc with lastUpdateUs := UInt32.ofNat now } } := if_neg (not_le.2 h)

theorem flightCtrlBody_of_safetyExit {snap : Snapshot F} (h : snap.SafetyExit) (now : ℕ)
    (s : Firmware F) :
    flightCtrlBody now snap s = flightControllerResetIntegrals (escArmAll s) := by
  unfold flightCtrlBody
  by_cases hk : snap.killed = true
  · rw [if_pos hk]
  · rw [if_neg hk, if_pos (h.resolve_left hk)]

theorem lastUpdateUs_flightCtrlBody (now : ℕ) (snap : Snapshot F) (s : Firmware F) :
    (flightCtrlBody now snap s).fc.lastUpdateUs =
      if snap.SafetyExit then s.fc.lastUpdateUs else UInt32.ofNat now := by
  by_cases h : snap.SafetyExit
  · rw [if_pos h, flightCtrlBody_of_safetyExit h]
    rfl
  rw [if_neg h]
  unfold flightCtrlBody
  rw [if_neg (not_or.1 h).1, if_neg (not_or.1 h).2]
  unfold flightControllerUpdate
  dsimp only
  split
  · rfl
  · rfl

variable [CText F]

/-- The readings of the flight controller in a run. -/
abbrev timerReadings (sock : ℤ) (es : List (Event F)) : List ℕ :=
  observed step Firmware.timerReading (boot sock) es

theorem StampsLatest.step {readings : List ℕ} {s : Firmware F} (h : StampsLatest readings s)
    (e : Event F) : StampsLatest (readings ++ (s.timerReading e).toList) (step s e) := by
  by_cases hin : e.IsInput
  · obtain ⟨ctrl, globals, task, heq⟩ := step_input_eq (s := s) hin
    rw [timerReading_input hin, Option.toList_none, List.append_nil]
    exact h.keep (by rw [heq]) (task_start_input hin)
  cases e with
  | fcInit now =>
    rcases htask : s.task with _ | _ | ⟨pitch, roll, yawRate⟩ | snap
    · simp only [EdnaDrone.step, flightCtrlStart, Firmware.timerReading, htask]
      exact stampsLatest_concat rfl
    all_goals
      simp only [EdnaDrone.step, flightCtrlStart, Firmware.timerReading, htask, Option.toList_none,
        List.append_nil]
      exact h
  | fcAct now =>
    show StampsLatest (readings ++ (s.timerReading (.fcAct now)).toList) (flightCtrlAct now s)
    by_cases htask : ∃ snap, s.task = .gotSetpoint snap
    · obtain ⟨snap, htask⟩ := htask
      have hlast := lastUpdateUs_flightCtrlBody now snap s
      rw [flightCtrlAct_gotSetpoint htask, timerReading_act htask]
      by_cases hx : snap.SafetyExit
      · rw [if_pos hx] at hlast ⊢
        rw [Option.toList_none, List.append_nil]
        refine h.keep hlast fun hs => ?_
        rw [htask] at hs
        cases hs
      · rw [if_neg hx] at hlast ⊢
        exact stampsLatest_concat hlast
    · have hidle : ∀ snap, s.task ≠ .gotSetpoint snap := fun snap h => htask ⟨snap, h⟩
      rw [flightCtrlAct_idle hidle, timerReading_idle hidle, Option.toList_none, List.append_nil]
      exact h
  | recv src data =>
    obtain ⟨t, -, heq⟩ := receive_eq (s := s) src data
    have hnone : s.timerReading (.recv src data) = none := rfl
    rw [hnone, Option.toList_none, List.append_nil]
    refine h.keep ?_ ?_
    · simp only [EdnaDrone.step, heq]
      split
      · rfl
      · exact lastUpdateUs_applyPacket _ _
    · intro hs
      simp only [EdnaDrone.step, heq]
      exact hs
  | _ => exact absurd trivial hin

theorem stampsLatest_run (sock : ℤ) (es : List (Event F)) :
    StampsLatest (timerReadings sock es) (run sock es) :=
  observed_invariant StampsLatest [] ⟨nofun, fun _ => rfl⟩
    (fun _ _ e h => h.step e) es

end Model

/-! ## Exact arithmetic -/

variable {K : Type} [Field K] [LinearOrder K] [IsStrictOrderedRing K] [FloorRing K]

theorem guardedDt_eq (now last : UInt32) :
    (guardedDt now last : K) =
      if 0 < (now - last).toNat ∧ (now - last).toNat ≤ 100000 then ((now - last).toNat : K) / 1000000
      else 1 / 100 := by
  have h0 : (ofRat 0 : K) = 0 := Rat.cast_zero
  have h1 : (ofRat (1 / 10) : K) = 1 / 10 := by norm_num [ofRat_exact]
  have h2 : (ofRat (1 / 100) : K) = 1 / 100 := by norm_num [ofRat_exact]
  have h3 : (ofRat 1000000 : K) = 1000000 := by norm_num [ofRat_exact]
  have hn : (ofInt ((now - last).toNat : ℤ) : K) = ((now - last).toNat : K) := by
    rw [ofInt_exact, Int.cast_natCast]
  unfold guardedDt
  dsimp only
  rw [h0, h1, h2, h3, hn]
  generalize (now - last).toNat = n
  have hpos : (n : K) / 1000000 ≤ 0 ↔ n = 0 := by
    rw [div_le_iff₀ (by norm_num), zero_mul, ← Nat.cast_zero, Nat.cast_le, Nat.le_zero]
  have hle : 1 / 10 < (n : K) / 1000000 ↔ 100000 < n := by
    have hn' : (1 / 10 : K) * 1000000 = (100000 : ℕ) := by norm_num
    rw [lt_div_iff₀ (by norm_num), hn', Nat.cast_lt]
  by_cases h : 0 < n ∧ n ≤ 100000
  · have hnot : ¬ ((n : K) / 1000000 ≤ 0 ∨ 1 / 10 < (n : K) / 1000000) := by
      rw [hpos, hle]
      omega
    rw [if_pos h, if_neg hnot]
  · have hguard : (n : K) / 1000000 ≤ 0 ∨ 1 / 10 < (n : K) / 1000000 := by
      rw [hpos, hle]
      omega
    rw [if_neg h, if_pos hguard]

/-- Between readings less than a turn of the counter apart. -/
theorem guardedDt_ofNat {t u : ℕ} (h : u ≤ t) (hlt : t - u < 2 ^ 32) :
    (guardedDt (UInt32.ofNat t) (UInt32.ofNat u) : K) =
      if 0 < t - u ∧ t - u ≤ 100000 then ((t - u : ℕ) : K) / 1000000 else 1 / 100 := by
  rw [guardedDt_eq, toNat_ofNat_sub_ofNat_of_lt h hlt]

/-! ## The time step across a wrap -/

/-- A time step in seconds is right for the time elapsed in microseconds. -/
structure TimeStep (dt : K) (elapsed : ℕ) : Prop where
  pos : 0 < dt
  le : dt ≤ 1 / 10
  eq : 0 < elapsed → elapsed ≤ 100000 → dt = (elapsed : K) / 1000000

theorem timeStep_guardedDt {t u : ℕ} (h : u ≤ t) :
    TimeStep (guardedDt (UInt32.ofNat t) (UInt32.ofNat u) : K) (t - u) := by
  obtain ⟨hpos, hle⟩ := guardedDt_mem (K := K) (UInt32.ofNat t) (UInt32.ofNat u)
  refine ⟨hpos, hle, ?_⟩
  intro h1 h2
  rw [guardedDt_ofNat h (by omega), if_pos ⟨h1, h2⟩]

/-- The latest of a list of readings that do not go back is not after the next one. -/
theorem le_of_isChain_concat {l : List ℕ} {t now : ℕ} (h : (l ++ [now]).IsChain (· ≤ ·))
    (ht : l.getLast? = some t) : t ≤ now :=
  (List.isChain_append.1 h).2.2 t ht now rfl

/-- In both loops the time step is the time since the latest reading, in seconds, whenever that is
positive and at most 0.1 s, and it is always positive and at most 0.1 s. It is the one that the filters
and the PIDs get. -/
theorem time_step_right :
    (∀ (start : ℕ) (es : List (ImuIteration K)) (now : ℕ),
      (start :: es.map ImuIteration.now ++ [now]).IsChain (· ≤ ·) →
        TimeStep (imuTaskDt (imuTaskRun start es) now) (now - lastReading start es)) ∧
    (∀ (t : ImuTask K) (now : ℕ) (raw : Mpu6050Data K), t.PassesDt now raw) ∧
    (∀ (sock : ℤ) (es : List (Event K)) (now : ℕ),
      (run sock es).timerReading (.fcAct now) = some now →
      (timerReadings sock (es ++ [.fcAct now])).IsChain (· ≤ ·) →
        ∃ last, (timerReadings sock es).getLast? = some last ∧
          TimeStep (flightControllerDt (run sock es) now) (now - last)) ∧
    ∀ (snap : Snapshot K) (now : ℕ) (s : Firmware K), (escPwmSpinUs : ℤ) < snap.throttle →
      flightControllerUpdate now snap s = flightControllerMix (flightControllerDt s now) snap
        { s with fc := { s.fc with lastUpdateUs := UInt32.ofNat now } } := by
  refine ⟨?_, ImuTask.passesDt, ?_, ?_⟩
  · intro start es now hmono
    unfold imuTaskDt
    rw [lastUs_imuTaskRun]
    exact timeStep_guardedDt (le_of_isChain_concat hmono (getLast?_readings start es))
  · intro sock es now hcall hmono
    have hstamp := stampsLatest_run sock es
    have hone : observed step Firmware.timerReading (run sock es) [.fcAct now] = [now] := by
      rw [observed_cons, hcall]
      rfl
    rw [timerReadings, observed_append, hone] at hmono
    rcases h : (timerReadings sock es).getLast? with _ | last
    · -- the task has not started, so it makes no call
      have htask := hstamp.started (List.getLast?_eq_none_iff.1 h)
      have hidle : ∀ snap, (run sock es).task ≠ .gotSetpoint snap := by
        intro snap hs
        rw [htask] at hs
        cases hs
      rw [timerReading_idle hidle] at hcall
      cases hcall
    · refine ⟨last, rfl, ?_⟩
      unfold flightControllerDt
      rw [hstamp.latest last h]
      exact timeStep_guardedDt (le_of_isChain_concat hmono h)
  · intro snap now s hthrottle
    exact flightControllerUpdate_of_lt hthrottle now s

/-- The 32-bit counter wraps between two iterations 10 ms apart, and so it does between
`flight_controller_init` and the first call of `flight_controller_update`. -/
theorem time_step_right_wrap :
    TimeStep (imuTaskDt (imuTaskRun 4294962296 []) 4294972296 : ℚ) 10000 ∧
      ∃ last, (timerReadings (F := ℚ) 3
          [.fcInit 4294962296, .fcTakeImu true, .fcTakeSetpoint true]).getLast? = some last ∧
        TimeStep (flightControllerDt (run (F := ℚ) 3
          [.fcInit 4294962296, .fcTakeImu true, .fcTakeSetpoint true]) 4294972296)
          (4294972296 - last) :=
  ⟨(time_step_right (K := ℚ)).1 4294962296 [] 4294972296 (by decide),
    (time_step_right (K := ℚ)).2.2.1 3 [.fcInit 4294962296, .fcTakeImu true, .fcTakeSetpoint true]
      4294972296 (by decide +kernel) (by decide +kernel)⟩

/-! ## Failed reads -/

section

variable {F : Type}

def ImuIteration.Succeeds (e : ImuIteration F) : Bool := e.raw.isSome

/-- The reading of the latest iteration whose read succeeded. -/
def lastSuccess (es : List (ImuIteration F)) : Option ℕ :=
  (es.filter ImuIteration.Succeeds).getLast?.map ImuIteration.now

/-- `P last latest now` holds at each successful iteration but the first: `last` is the reading of the
successful one before it, `latest` that of the iteration before it and `now` its own. -/
def AtSuccesses (P : List (ImuIteration F) → ℕ → ℕ → Prop) (es : List (ImuIteration F)) : Prop :=
  ∀ pre now raw post last, es = pre ++ ⟨now, some raw⟩ :: post → lastSuccess pre = some last →
    P pre last now

/-- No failed read lies between two successful ones at different readings, unless it is at the reading
of the earlier one, or at that of the later one and 10 ms after the earlier. -/
def FailsAside (start : ℕ) (es : List (ImuIteration F)) : Prop :=
  AtSuccesses (fun pre last now =>
    (lastReading start pre = last ∧ last < now) ∨
      (lastReading start pre = now ∧ now = last + 10000)) es

/-- The readings do not go back, and successive successful reads are at most 100 ms apart. -/
structure ReadsOften (start : ℕ) (es : List (ImuIteration F)) : Prop where
  mono : (start :: es.map ImuIteration.now).IsChain (· ≤ ·)
  gaps : (es.filter ImuIteration.Succeeds).IsChain (fun a b => b.now - a.now ≤ 100000)

/-- The order of the three readings at a successful iteration. -/
theorem ReadsOften.at_success {start : ℕ} {pre post : List (ImuIteration F)} {e : ImuIteration F}
    {last : ℕ} (h : ReadsOften start (pre ++ e :: post)) (he : e.Succeeds = true)
    (hlast : lastSuccess pre = some last) :
    last ≤ lastReading start pre ∧ lastReading start pre ≤ e.now ∧ e.now - last ≤ 100000 := by
  obtain ⟨hmono, hgaps⟩ := h
  rw [List.map_append, List.map_cons, ← List.cons_append, List.append_cons] at hmono
  have hpre := (List.isChain_append.1 hmono).1
  obtain ⟨a, ha, rfl⟩ := Option.map_eq_some_iff.1 hlast
  have hmem : a ∈ pre := List.mem_of_mem_filter (List.mem_of_getLast? ha)
  refine ⟨?_, le_of_isChain_concat hpre (getLast?_readings start pre), ?_⟩
  · -- the readings are sorted, so the latest of them is the largest
    have hsorted := List.isChain_iff_pairwise.1 (List.isChain_append.1 hpre).1
    have hne : start :: pre.map ImuIteration.now ≠ [] := List.cons_ne_nil _ _
    have hle := hsorted.rel_getLast (List.mem_cons_of_mem _ (List.mem_map_of_mem hmem))
    rwa [List.getLast_eq_iff_getLast?_eq_some hne |>.2 (getLast?_readings start pre)] at hle
  · rw [List.filter_append, List.filter_cons_of_pos he] at hgaps
    exact (List.isChain_append.1 hgaps).2.2 a ha e rfl

variable [Add F] [Sub F] [Mul F] [Div F] [LT F] [DecidableLT F] [LE F] [DecidableLE F] [CNum F]

/-- The filters get the time since the previous successful iteration. -/
def CoversElapsed (start : ℕ) (es : List (ImuIteration F)) : Prop :=
  AtSuccesses (fun pre last now =>
    imuTaskDt (imuTaskRun start pre) now = ofRat ((now - last : ℕ) / 1000000)) es

end

/-! ## Microseconds -/

section

variable {F : Type} [Add F] [Sub F] [Mul F] [Div F] [LT F] [DecidableLT F] [LE F] [DecidableLE F]
  [CNum F]

variable (F) in
/-- The time step is the number of seconds between two readings up to 0.1 s apart, and the numbers of
seconds up to 0.1 s tell the numbers of microseconds apart. -/
structure TellsMicros : Prop where
  dt : ∀ {t u : ℕ}, u ≤ t → t - u < 2 ^ 32 →
    (guardedDt (UInt32.ofNat t) (UInt32.ofNat u) : F) =
      if 0 < t - u ∧ t - u ≤ 100000 then ofRat ((t - u : ℕ) / 1000000) else ofRat (1 / 100)
  inj : ∀ {m n : ℕ}, m ≤ 100000 → n ≤ 100000 →
    ((ofRat (m / 1000000) : F) = ofRat (n / 1000000) ↔ m = n)

/-- The time step of one iteration covers the time since `last` exactly when no reading was taken in
between, or the guard replaces a zero by the right time. -/
theorem TellsMicros.covers_iff (T : TellsMicros F) {start now last : ℕ}
    {pre : List (ImuIteration F)} (h1 : last ≤ lastReading start pre)
    (h2 : lastReading start pre ≤ now) (h3 : now - last ≤ 100000) :
    imuTaskDt (imuTaskRun start pre) now = ofRat ((now - last : ℕ) / 1000000) ↔
      (lastReading start pre = last ∧ last < now) ∨
        (lastReading start pre = now ∧ now = last + 10000) := by
  unfold imuTaskDt
  rw [lastUs_imuTaskRun, T.dt h2 (by omega)]
  generalize lastReading start pre = latest at h1 h2
  by_cases hgap : 0 < now - latest
  · rw [if_pos ⟨hgap, by omega⟩, T.inj (by omega) h3]
    omega
  · have h100 : (1 / 100 : ℚ) = (10000 : ℕ) / 1000000 := by norm_num
    rw [if_neg (by omega), h100, T.inj (by omega) h3]
    omega

theorem TellsMicros.coversElapsed_iff (T : TellsMicros F) {start : ℕ} {es : List (ImuIteration F)}
    (h : ReadsOften start es) : CoversElapsed start es ↔ FailsAside start es := by
  have hiff : ∀ pre now raw post last, es = pre ++ ⟨now, some raw⟩ :: post →
      lastSuccess pre = some last →
        (imuTaskDt (imuTaskRun start pre) now = ofRat ((now - last : ℕ) / 1000000) ↔
          (lastReading start pre = last ∧ last < now) ∨
            (lastReading start pre = now ∧ now = last + 10000)) := by
    rintro pre now raw post last rfl hlast
    obtain ⟨h1, h2, h3⟩ := h.at_success rfl hlast
    exact T.covers_iff h1 h2 h3
  constructor
  · intro hcov pre now raw post last hes hlast
    exact (hiff pre now raw post last hes hlast).1 (hcov pre now raw post last hes hlast)
  · intro hcond pre now raw post last hes hlast
    exact (hiff pre now raw post last hes hlast).2 (hcond pre now raw post last hes hlast)

end

theorem tellsMicros_exact : TellsMicros K := by
  have hsec : ∀ n : ℕ, (ofRat (n / 1000000) : K) = (n : K) / 1000000 := by
    intro n
    rw [ofRat_exact, Rat.cast_div, Rat.cast_natCast, Rat.cast_ofNat]
  refine ⟨?_, ?_⟩
  · intro t u h hlt
    have hcenti : (ofRat (1 / 100) : K) = 1 / 100 := by norm_num [ofRat_exact]
    rw [guardedDt_ofNat h hlt, hsec, hcenti]
  · intro m n _ _
    rw [hsec, hsec, div_left_inj' (by norm_num), Nat.cast_inj]

/-! ## Microseconds in C's `float` -/

section

open Lib.Flt hiding ofRat abs

theorem micros_float : (ofRat 1000000 : CFloat).Plus ∧ (ofRat 1000000 : CFloat).val = 1000000 := by
  decide +kernel

/-- The time step of a reading at most 0.1 s after the latest is their distance, rounded. -/
theorem guardedDt_soon {now last : UInt32} (h : 0 < (now - last).toNat)
    (hle : (now - last).toNat ≤ 100000) :
    (guardedDt now last : CFloat) = ofRat ((now - last).toNat / 1000000) := by
  unfold guardedDt
  generalize (now - last).toNat = n at *
  have hval : (ofInt n : CFloat).val = n := by
    have hint := (val_ofInt (n := n) (by rw [Nat.abs_cast]; omega)).2
    rwa [Int.cast_natCast] at hint
  have hdiv : (ofInt n / ofRat 1000000 : CFloat) = ofRat (n / 1000000) := by
    rw [(plus_ofInt (by omega)).div_eq micros_float.1 (by rw [micros_float.2]; norm_num), hval,
      micros_float.2]
    rfl
  have hone : (1 : ℚ) ≤ n := by exact_mod_cast h
  have hn : (n : ℚ) ≤ 100000 := by exact_mod_cast hle
  have hpos : (ofRat 0 : CFloat) < ofRat (n / 1000000) :=
    Flt.lt_of_lt_of_le (y := ofRat (1 / 1000000)) (by decide +kernel) (Flt.ofRat_mono (by gcongr))
  have htenth : (ofRat (n / 1000000) : CFloat) ≤ ofRat (1 / 10) := by
    refine Flt.ofRat_mono ?_
    rw [div_le_div_iff₀ (by norm_num) (by norm_num)]
    linarith
  dsimp only
  rw [hdiv]
  refine if_neg (not_or.2 ⟨?_, ?_⟩)
  · intro hbad
    exact not_lt_of_key_eq rfl (Flt.lt_of_lt_of_le hpos hbad)
  · intro hbad
    exact not_lt_of_key_eq rfl (Flt.lt_of_lt_of_le hbad htenth)

/-- Later than that, it is the default. -/
theorem guardedDt_late {now last : UInt32} (h : 100000 < (now - last).toNat) :
    (guardedDt now last : CFloat) = ofRat (1 / 100) := by
  have hlt : (now - last).toNat < 2 ^ 32 := UInt32.toNat_lt _
  unfold guardedDt
  generalize (now - last).toNat = n at *
  have hplus : (ofInt n : CFloat).Plus := plus_ofInt hlt
  have hleast : (ofInt 100001 : CFloat).Plus := by decide +kernel
  have hden : (ofRat 1000000 : CFloat).Plus ∧ 0 < (ofRat 1000000 : CFloat).val := by decide +kernel
  have hmono : (ofInt 100001 : CFloat) ≤ ofInt n := by
    apply Flt.ofRat_mono
    exact_mod_cast h
  have hdiv : (ofInt 100001 / ofRat 1000000 : CFloat) ≤ ofInt n / ofRat 1000000 :=
    hleast.div_le_div_right hplus hden.1 hden.2
      ((le_iff_val hleast.isFinite hplus.isFinite).1 hmono)
  have hlate : (ofRat (1 / 10) : CFloat) < ofInt 100001 / ofRat 1000000 := by decide +kernel
  exact if_pos (.inr (Flt.lt_of_lt_of_le hlate hdiv))

theorem tellsMicros_float : TellsMicros CFloat := by
  refine ⟨?_, ?_⟩
  · intro t u h hlt
    rw [← toNat_ofNat_sub_ofNat_of_lt h hlt]
    generalize UInt32.ofNat t = now, UInt32.ofNat u = last
    split_ifs with hsoon
    · exact guardedDt_soon hsoon.1 hsoon.2
    by_cases hzero : 0 < (now - last).toNat
    · exact guardedDt_late (by omega)
    · have h0 : (now - last).toNat = 0 := by omega
      unfold guardedDt
      rw [h0]
      decide +kernel
  · intro m n hm hn
    refine ⟨fun heq => ?_, fun heq => by rw [heq]⟩
    -- the seconds lie in binades where rounding moves them by less than half a microsecond
    have hround : ∀ k : ℕ, k ≤ 100000 →
        |(ofRat (k / 1000000) : CFloat).val - k / 1000000| ≤ 2 ^ (-27 : ℤ) := by
      intro k hk
      have hk' : (k : ℚ) ≤ 100000 := by exact_mod_cast hk
      have hle : |(k / 1000000 : ℚ)| ≤ 2 ^ (-3 : ℤ) := by
        rw [abs_of_nonneg (by positivity), div_le_iff₀ (by norm_num)]
        norm_num
        linarith
      exact (abs_val_ofRat_sub_le (by decide) (by decide) hle).2
    have h1 := abs_le.1 (hround m hm)
    have h2 := abs_le.1 (hround n hn)
    have hgap : (2 : ℚ) ^ (-27 : ℤ) = 1 / 134217728 := by norm_num
    rw [heq, hgap] at h1
    rw [hgap] at h2
    have hlt : (m : ℚ) < n + 1 := by linarith
    have hgt : (n : ℚ) < m + 1 := by linarith
    exact le_antisymm (Nat.lt_succ_iff.1 (by exact_mod_cast hlt))
      (Nat.lt_succ_iff.1 (by exact_mod_cast hgt))

end

/-- The time before a failed read is lost, in exact arithmetic as in C's `float`: in a run whose
successful reads are at most 100 ms apart, every time step that the filters get covers the time since
the previous successful iteration exactly when the failed reads lie aside. -/
theorem covers_elapsed_iff :
    ((∀ (start : ℕ) (es : List (ImuIteration K)), ReadsOften start es →
        (CoversElapsed start es ↔ FailsAside start es)) ∧
      ∀ (t : ImuTask K) (now : ℕ) (raw : Mpu6050Data K), t.PassesDt now raw) ∧
    (∀ (start : ℕ) (es : List (ImuIteration CFloat)), ReadsOften start es →
        (CoversElapsed start es ↔ FailsAside start es)) ∧
      ∀ (t : ImuTask CFloat) (now : ℕ) (raw : Mpu6050Data CFloat), t.PassesDt now raw := by
  refine ⟨⟨?_, ImuTask.passesDt⟩, ?_, ImuTask.passesDt⟩
  · intro start es h
    exact tellsMicros_exact.coversElapsed_iff h
  · intro start es h
    exact tellsMicros_float.coversElapsed_iff h

/-- A reading of the sensor at rest. -/
def restData {F : Type} [CNum F] : Mpu6050Data F := ⟨ofRat 0, ofRat 0, ofRat 0, ofRat 0, ofRat 0⟩

/-- A read that fails at the reading of the one before it loses nothing; a read that fails 10 ms later
does. -/
theorem covers_elapsed_iff_glitch :
    CoversElapsed 0
        [⟨10000, some restData⟩, ⟨10000, none⟩, ⟨20000, some (restData : Mpu6050Data CFloat)⟩] ∧
      ¬ CoversElapsed 0
        [⟨10000, some restData⟩, ⟨20000, none⟩, ⟨30000, some (restData : Mpu6050Data ℚ)⟩] := by
  constructor
  · refine ((covers_elapsed_iff (K := ℚ)).2.1 0 _ ⟨by decide, by decide⟩).2 ?_
    intro pre now raw post last hes hlast
    rcases pre with _ | ⟨a, _ | ⟨b, _ | ⟨c, pre⟩⟩⟩
    · cases hlast
    · simp at hes
    · simp only [List.cons_append, List.nil_append, List.cons.injEq] at hes
      obtain ⟨rfl, rfl, h, -⟩ := hes
      cases h
      cases hlast
      exact .inl (by decide)
    · simp at hes
  · intro hcov
    have haside := ((covers_elapsed_iff (K := ℚ)).1.1 0 _ ⟨by decide, by decide⟩).1 hcov
    have hlast := haside [⟨10000, some restData⟩, ⟨20000, none⟩] 30000 restData [] 10000 rfl rfl
    exact absurd hlast (by decide)

/-- One read fails between two that succeed, each 10 ms after the one before: the filters get 10 ms of
the 20 ms that have passed. -/
theorem failed_read_loses_time :
    ¬ ∀ (start : ℕ) (es : List (ImuIteration CFloat)), ReadsOften start es → CoversElapsed start es := by
  intro h
  have h1 : imuTaskDt (imuTaskRun 0 [⟨10000, some restData⟩, ⟨20000, none⟩]) 30000 =
      (ofRat ((30000 - 10000 : ℕ) / 1000000) : CFloat) :=
    h 0 [⟨10000, some restData⟩, ⟨20000, none⟩, ⟨30000, some restData⟩] ⟨by decide, by decide⟩
      [⟨10000, some restData⟩, ⟨20000, none⟩] 30000 restData [] 10000 rfl rfl
  unfold imuTaskDt at h1
  rw [lastUs_imuTaskRun] at h1
  revert h1
  decide +kernel

end EdnaDrone
