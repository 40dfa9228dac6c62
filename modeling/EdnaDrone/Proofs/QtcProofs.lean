import EdnaDrone.QtcApp

/-!
# What Send Gains sends

Every telemetry packet sets the sliders to the gains that the drone reports, whether or not the user
has edited them. A press sends the user's edits exactly when no packet after the last edit of a
slider has set it to another value.
-/

namespace EdnaDrone

open Lib CNum

/-! ## The law -/

/-- The user's latest edit of a slider since the previous press. -/
def latestEdit (k : Axis × GainKey) (es : List QtcEvent) : Option CDouble :=
  es.foldl
    (fun last e =>
      match e with
      | .edit k' v => if k' = k then some v else last
      | .packet _ => last
      | .press => none)
    none

/-- A press sends every slider that was edited since the previous one with its latest edit. -/
def SendsEdits (es : List QtcEvent) (calls : List (Axis × Gains CDouble)) : Prop :=
  ∀ k v, latestEdit k es = some v → ∃ g, (k.1, g) ∈ calls ∧ g.get k.2 = v

/-- What a packet sets a slider to: it has the key, and no value before it makes the callback
raise. -/
def sliderUpdate (intOfStr : Bytes → Option ℤ) (d : PyDict) (k : Axis × GainKey) :
    Option CDouble :=
  if (motorNames.all fun m => (((d m).getD (.int 1000)).toInt intOfStr).isSome) ∧
      (sliders.takeWhile (· ≠ k)).all fun j => (d (sliderName j)).all fun val => val.round.isSome then
    (d (sliderName k)).bind PyValue.round
  else none

/-- What the packets since the latest edit of a slider have set it to, if they have. -/
def reportedSince (intOfStr : Bytes → Option ℤ) (k : Axis × GainKey) (es : List QtcEvent) :
    Option CDouble :=
  es.foldl
    (fun last e =>
      match e with
      | .edit k' _ => if k' = k then none else last
      | .packet d => (sliderUpdate intOfStr d k).or last
      | .press => last)
    none

/-- No edited slider was set to another value after its latest edit. -/
def EditsKept (intOfStr : Bytes → Option ℤ) (es : List QtcEvent) : Prop :=
  ∀ k v, latestEdit k es = some v → ∀ x, reportedSince intOfStr k es = some x → x = v

/-! ## The sliders -/

section Sliders

variable {F : Type}

theorem Gains.get_set (g : Gains F) (x : F) (i j : GainKey) :
    (g.set x i).get j = if i = j then x else g.get j := by
  cases i <;> cases j <;> rfl

theorem PidSet.get_set (vars : PidSet F) (k j : Axis × GainKey) (x : F) :
    (vars.set k x).get j = if k = j then x else vars.get j := by
  obtain ⟨a, i⟩ := k
  obtain ⟨b, j⟩ := j
  unfold PidSet.get PidSet.set
  by_cases hab : b = a
  · subst hab
    rw [Function.update_self, Gains.get_set]
    simp only [Prod.mk.injEq, true_and]
  · rw [Function.update_of_ne hab, if_neg]
    intro h
    exact hab (congrArg Prod.fst h).symm

end Sliders

/-! ## One packet -/

variable {intOfStr : Bytes → Option ℤ}

theorem refreshSliders_of_not_mem {k : Axis × GainKey} {ks : List (Axis × GainKey)} (hk : k ∉ ks)
    (d : PyDict) (vars : PidSet CDouble) : (refreshSliders d ks vars).get k = vars.get k := by
  induction ks generalizing vars with
  | nil => rfl
  | cons j ks ih =>
    rw [List.mem_cons, not_or] at hk
    rw [refreshSliders]
    split
    · exact ih hk.2 vars
    · split
      · rfl
      · rw [ih hk.2, PidSet.get_set, if_neg (Ne.symm hk.1)]

/-- The loop sets a slider of its list exactly when it gets there. -/
theorem refreshSliders_get {k : Axis × GainKey} {ks : List (Axis × GainKey)} (hks : ks.Nodup)
    (hk : k ∈ ks) (d : PyDict) (vars : PidSet CDouble) :
    (refreshSliders d ks vars).get k =
      (if (ks.takeWhile (· ≠ k)).all fun j => (d (sliderName j)).all fun val => val.round.isSome then
        (d (sliderName k)).bind PyValue.round else none).getD (vars.get k) := by
  induction ks generalizing vars with
  | nil => cases hk
  | cons j ks ih =>
    rw [List.nodup_cons] at hks
    rw [refreshSliders]
    by_cases hjk : j = k
    · subst hjk
      rw [List.takeWhile_cons_of_neg (by simp), List.all_nil, if_pos rfl]
      cases d (sliderName j) with
      | none => exact refreshSliders_of_not_mem hks.1 d vars
      | some val =>
        cases hr : val.round with
        | none => simp [hr]
        | some x => simp [hr, refreshSliders_of_not_mem hks.1, PidSet.get_set]
    · have hk' : k ∈ ks := (List.mem_cons.1 hk).resolve_left (Ne.symm hjk)
      rw [List.takeWhile_cons_of_pos (by simpa using hjk), List.all_cons]
      cases d (sliderName j) with
      | none =>
        rw [Option.all_none, Bool.true_and]
        exact ih hks.2 hk' vars
      | some val =>
        rw [Option.all_some]
        cases hr : val.round with
        | none => simp [hr]
        | some x =>
          have hset := ih hks.2 hk' (vars.set j x)
          rw [PidSet.get_set, if_neg hjk] at hset
          rw [Option.isSome_some, Bool.true_and]
          simp only [hr]
          exact hset

theorem mem_sliders (k : Axis × GainKey) : k ∈ sliders := by
  obtain ⟨a, g⟩ := k
  cases a <;> cases g <;> decide

theorem refreshLive_get (d : PyDict) (vars : PidSet CDouble) (k : Axis × GainKey) :
    (refreshLive intOfStr d vars).get k = (sliderUpdate intOfStr d k).getD (vars.get k) := by
  unfold refreshLive sliderUpdate
  split
  · rename_i hm
    rw [refreshSliders_get (by decide) (mem_sliders k)]
    simp only [hm, true_and]
  · rename_i hm
    rw [if_neg fun h => hm h.1]
    rfl

/-! ## Runs -/

variable {s : QtcState}

theorem connected_run (es : List QtcEvent) :
    (runFrom (qtcStep intOfStr) s es).connected = s.connected := by
  induction es generalizing s with
  | nil => rfl
  | cons e es ih =>
    rw [runFrom_cons, ih]
    cases e <;> rfl

/-- An edited slider holds what the packets since the edit have set it to, and else the edit. -/
theorem gainVars_run {k : Axis × GainKey} {v : CDouble} {es : List QtcEvent}
    (h : latestEdit k es = some v) :
    (runFrom (qtcStep intOfStr) s es).gainVars.get k = (reportedSince intOfStr k es).getD v := by
  induction es using List.reverseRecOn generalizing v with
  | nil => cases h
  | append_singleton es e ih =>
    rw [runFrom_append, runFrom_cons, runFrom_nil]
    unfold latestEdit reportedSince at *
    rw [List.foldl_append] at h ⊢
    cases e with
    | edit j w =>
      simp only [List.foldl_cons, List.foldl_nil, qtcStep] at h ⊢
      rw [PidSet.get_set]
      by_cases hj : j = k
      · rw [if_pos hj] at h ⊢
        rw [if_pos hj, Option.getD_none]
        exact Option.some.inj h
      · rw [if_neg hj] at h ⊢
        rw [if_neg hj]
        exact ih h
    | packet d =>
      simp only [List.foldl_cons, List.foldl_nil, qtcStep] at h ⊢
      rw [refreshLive_get, ih h, Option.getD_or]
    | press => cases h

/-- One press sends the edits exactly when they were kept. -/
theorem sendsEdits_iff (hs : s.connected = true) (es : List QtcEvent) :
    SendsEdits es (sendGains (runFrom (qtcStep intOfStr) s es)) ↔ EditsKept intOfStr es := by
  unfold SendsEdits EditsKept
  refine forall₂_congr fun k v => ?_
  refine imp_congr_right fun h => ?_
  have hvar : (runFrom (qtcStep intOfStr) s es).gainVars.get k =
      (reportedSince intOfStr k es).getD v := gainVars_run h
  have hcall : (∃ g, (k.1, g) ∈ sendGains (runFrom (qtcStep intOfStr) s es) ∧ g.get k.2 = v) ↔
      (runFrom (qtcStep intOfStr) s es).gainVars.get k = v := by
    unfold sendGains
    rw [connected_run, if_pos hs]
    constructor
    · rintro ⟨g, hg, hv⟩
      obtain ⟨a, -, ha⟩ := List.mem_map.1 hg
      obtain ⟨rfl, rfl⟩ := Prod.mk.inj ha
      exact hv
    · intro hv
      refine ⟨_, List.mem_map.2 ⟨k.1, ?_, rfl⟩, hv⟩
      cases k.1 <;> decide
  rw [hcall, hvar]
  cases reportedSince intOfStr k es with
  | none => simp
  | some x => simp

/-- In every run of the connected console, each press sends every slider edited since the previous
press with its latest edit, exactly when at each press no packet handled after the latest edit of a
slider has left it at another value. -/
theorem presses_send_edits_iff (intOfStr : Bytes → Option ℤ) (s : QtcState)
    (hs : s.connected = true) (es : List QtcEvent) :
    (∀ pre post, es = pre ++ .press :: post →
        SendsEdits pre (sendGains (runFrom (qtcStep intOfStr) s pre))) ↔
      ∀ pre post, es = pre ++ .press :: post → EditsKept intOfStr pre := by
  refine forall₃_congr fun pre post _ => ?_
  exact sendsEdits_iff hs pre

/-- What a drone on the ground reports with its default gains. -/
def groundPacket : PyDict := fun name =>
  [(ascii "pitch", .float (ofRat 0)), (ascii "roll", .float (ofRat 0)),
    (ascii "yaw_rate", .float (ofRat 0)), (ascii "pitch_sp", .float (ofRat 0)),
    (ascii "roll_sp", .float (ofRat 0)), (ascii "yaw_sp", .float (ofRat 0)),
    (ascii "pitch_out", .float (ofRat 0)), (ascii "roll_out", .float (ofRat 0)),
    (ascii "yaw_out", .float (ofRat 0)), (ascii "m_fl", .int 1000), (ascii "m_fr", .int 1000),
    (ascii "m_rl", .int 1000), (ascii "m_rr", .int 1000), (ascii "throttle", .int 1000),
    (ascii "kp_pitch", .float (ofRat (12 / 10))), (ascii "ki_pitch", .float (ofRat (1 / 100))),
    (ascii "kd_pitch", .float (ofRat (8 / 100))), (ascii "kp_roll", .float (ofRat (12 / 10))),
    (ascii "ki_roll", .float (ofRat (1 / 100))), (ascii "kd_roll", .float (ofRat (8 / 100))),
    (ascii "kp_yaw", .float (ofRat 2)), (ascii "ki_yaw", .float (ofRat (5 / 100))),
    (ascii "kd_yaw", .float (ofRat 0))].lookup name

/-- The user moves one slider, a packet arrives, and the user presses Send Gains. -/
def editThenPacket : List QtcEvent :=
  [.edit (.pitch, .kp) (ofRat (15 / 10)), .packet groundPacket, .press]

theorem presses_send_edits_iff_edit_then_packet :
    (∀ pre post, editThenPacket = pre ++ .press :: post →
        SendsEdits pre (sendGains (runFrom (qtcStep fun _ => none) qtcStart pre))) ↔
      ∀ pre post, editThenPacket = pre ++ .press :: post → EditsKept (fun _ => none) pre :=
  presses_send_edits_iff (fun _ => none) qtcStart rfl editThenPacket

/-- The packet moves the slider back, and the press sends the old gain. -/
theorem packet_undoes_edit :
    ¬ ∀ (intOfStr : Bytes → Option ℤ) (s : QtcState), s.connected = true →
      ∀ es pre post, es = pre ++ QtcEvent.press :: post →
        SendsEdits pre (sendGains (runFrom (qtcStep intOfStr) s pre)) := by
  intro h
  have hsent := h (fun _ => none) qtcStart rfl editThenPacket
    [.edit (.pitch, .kp) (ofRat (15 / 10)), .packet groundPacket] [] rfl
    (.pitch, .kp) (ofRat (15 / 10)) rfl
  obtain ⟨g, hg, hv⟩ := hsent
  obtain ⟨a, -, ha⟩ := List.mem_map.1 hg
  obtain ⟨rfl, rfl⟩ := Prod.mk.inj ha
  revert hv
  decide +kernel

end EdnaDrone
