import EdnaDrone.Console
import EdnaDrone.Proofs.StepProofs

/-!
# Confirmations of the React console

The tolerance of `pidDraftsMatch` is the smallest step of the gain inputs, and the comparison admits
it. A report one step away from what was sent can be taken for a confirmation; whether it is depends
on how the two decimals round to binary.
-/

namespace EdnaDrone

open Lib CNum

/-! ## The grid -/

/-- The number of JavaScript for a decimal with at most four places. -/
def OnGrid (x : CDouble) : Prop := ∃ k : ℤ, x = ofRat (k / 10 ^ 4)

def Gains.OnGrid (g : Gains CDouble) : Prop := ∀ x, EdnaDrone.OnGrid (g.get x)

def SetOnGrid (d : PidSet CDouble) : Prop := ∀ a, (d a).OnGrid

/-- Two numbers whose distance exceeds the tolerance. An infinity is apart from all but itself. -/
def Apart (x y : CDouble) : Prop :=
  if x.IsFinite ∧ y.IsFinite then pidConfirmTolerance.val < |x.val - y.val| else x ≠ y

/-- Some gain of the one set is apart from that of the other. -/
def FarApart (g s : PidSet CDouble) : Prop := ∃ a x, Apart ((g a).get x) ((s a).get x)

theorem OnGrid.isNum {x : CDouble} (h : OnGrid x) : x.IsNum := by
  obtain ⟨k, rfl⟩ := h
  exact Flt.ofSign_isNum _ _

/-- A number of the grid is zero or at least the smallest step. -/
theorem OnGrid.exists_mul {x : CDouble} (h : OnGrid x) (hf : x.IsFinite) :
    ∃ n : ℤ, x.val = n * 2 ^ (-66 : ℤ) := by
  refine hf.exists_mul ?_
  obtain ⟨k, rfl⟩ := h
  by_cases hk : k = 0
  · left
    subst hk
    have h0 : ((0 : ℤ) : ℚ) / 10 ^ 4 = 0 := by norm_num
    rw [h0]
    exact Flt.val_ofRat_zero
  · right
    refine Flt.two_zpow_le_abs_ofRat (by norm_num [binary64]) ?_ hf
    have h1 : (1 : ℚ) ≤ |(k : ℚ)| := by
      exact_mod_cast Int.one_le_abs hk
    rw [abs_div, abs_of_pos (by norm_num : (0 : ℚ) < 10 ^ 4), le_div_iff₀ (by norm_num)]
    refine le_trans ?_ h1
    norm_num [binary64]

/-! ## What `pidDraftsMatch` accepts -/

theorem pidConfirmTolerance_bounds :
    pidConfirmTolerance.IsFinite ∧ pidConfirmTolerance.val < 2 ^ (-13 : ℤ) := by
  decide +kernel

theorem gainMatches_iff {x y : CDouble} (hx : OnGrid x) (hy : OnGrid y) :
    gainMatches x y = true ↔ ¬ Apart x y := by
  unfold gainMatches Apart
  split_ifs with hf
  · obtain ⟨m, hm⟩ := hx.exists_mul hf.1
    obtain ⟨n, hn⟩ := hy.exists_mul hf.2
    obtain ⟨ht, htop⟩ := pidConfirmTolerance_bounds
    rw [decide_eq_true_eq, not_lt]
    exact Flt.abs_sub_le_iff_of_mul (by norm_num [binary64]) hf.1 hf.2 ht hm hn htop
  · rw [not_not]
    exact Flt.numEq_iff hx.isNum hy.isNum hf

/-- Two steps of the grid are enough, for gains of any plausible size. -/
theorem apart_of_two_steps {j k : ℤ} (hj : |(j : ℚ) / 10 ^ 4| ≤ 2 ^ (30 : ℤ))
    (hk : |(k : ℚ) / 10 ^ 4| ≤ 2 ^ (30 : ℤ)) (h : 2 ≤ |j - k|) :
    Apart (ofRat (j / 10 ^ 4)) (ofRat (k / 10 ^ 4)) := by
  have hround : ∀ q : ℚ, |q| ≤ 2 ^ (30 : ℤ) → (Flt.ofRat q : CDouble).IsFinite ∧
      |(Flt.ofRat q : CDouble).val - q| ≤ 2 ^ ((30 : ℤ) - (binary64.prec : ℤ)) := fun q hq =>
    Flt.abs_val_ofRat_sub_le (by norm_num [binary64]) (by norm_num [binary64]) hq
  obtain ⟨hfj, hej⟩ := hround _ hj
  obtain ⟨hfk, hek⟩ := hround _ hk
  have hdist : (2 : ℚ) / 10 ^ 4 ≤ |(j : ℚ) / 10 ^ 4 - k / 10 ^ 4| := by
    rw [← sub_div, abs_div, abs_of_pos (by norm_num : (0 : ℚ) < 10 ^ 4)]
    gcongr
    exact_mod_cast h
  have herr : (2 : ℚ) ^ ((30 : ℤ) - (binary64.prec : ℤ)) ≤ 1 / 10 ^ 6 := by norm_num [binary64]
  have htop : (2 : ℚ) ^ (-13 : ℤ) < 15 / 10 ^ 5 := by norm_num
  have hof : ∀ q : ℚ, (ofRat q : CDouble) = Flt.ofRat q := fun _ => rfl
  rw [Apart, hof, hof, if_pos ⟨hfj, hfk⟩]
  refine pidConfirmTolerance_bounds.2.trans ?_
  rw [abs_le] at hej hek
  rcases le_abs.1 hdist with h1 | h1
  · exact lt_abs.2 (Or.inl (by linarith only [h1, hej.1, hek.2, herr, htop]))
  · exact lt_abs.2 (Or.inr (by linarith only [h1, hej.2, hek.1, herr, htop]))

theorem pidDraftsMatch_iff (g s : PidSet CDouble) :
    pidDraftsMatch g s = true ↔ ∀ a x, gainMatches ((g a).get x) ((s a).get x) = true := by
  simp only [pidDraftsMatch, pidAxes, pidGains, List.all_cons, List.all_nil, Bool.and_true,
    Bool.and_eq_true]
  constructor
  · rintro ⟨⟨h1, h2, h3⟩, ⟨h4, h5, h6⟩, ⟨h7, h8, h9⟩⟩ a x
    cases a <;> cases x <;> assumption
  · intro h
    exact ⟨⟨h _ _, h _ _, h _ _⟩, ⟨h _ _, h _ _, h _ _⟩, ⟨h _ _, h _ _, h _ _⟩⟩

/-- On the grid a report is accepted exactly when no gain is apart from the sent one. -/
theorem match_iff_not_farApart {g s : PidSet CDouble} (hg : SetOnGrid g) (hs : SetOnGrid s) :
    pidDraftsMatch g s = true ↔ ¬ FarApart g s := by
  rw [pidDraftsMatch_iff]
  unfold FarApart
  push Not
  constructor
  · intro h a x
    exact (gainMatches_iff (hg a x) (hs a x)).1 (h a x)
  · intro h a x
    exact (gainMatches_iff (hg a x) (hs a x)).2 (h a x)

/-- Acceptance implies `P` exactly when `P` holds or the sets are far apart. -/
theorem match_sound_iff {g s : PidSet CDouble} {P : Prop} (hg : SetOnGrid g) (hs : SetOnGrid s) :
    (pidDraftsMatch g s = true → P) ↔ (P ∨ FarApart g s) := by
  rw [match_iff_not_farApart hg hs]
  by_cases h : FarApart g s
  · simp [h]
  · simp [h]

/-! ## The invariant -/

/-- The number that the console reads of a printed gain has at most four decimals: `serde_json` reads
an `f32` and prints the shortest decimal that reads back as the same `f32`. -/
def RelaysDecimals (relay : ℚ → CDouble) : Prop :=
  ∀ x : CFloat, x.IsFinite → OnGrid (relay (printedGain x))

/-- A packet reports the gains that were stored when it was sent, with at most four decimals. -/
def GainPacket.Ok (relay : ℚ → CDouble) (p : GainPacket) : Prop :=
  p = gainPacket relay p.producedBy ∧ SetOnGrid p.reported

/-- Every set of gains that the console reads or sends has at most four decimals. -/
structure GridInv (relay : ℚ → CDouble) (s : ConsoleSystem) : Prop where
  packets : ∀ p ∈ s.packets, p.Ok relay
  latest : ∀ p ∈ s.console.latest, p.Ok relay
  pending : ∀ d ∈ s.console.pending, SetOnGrid d
  sending : ∀ x ∈ s.console.sending, SetOnGrid x.1
  rendered : ∀ r ∈ s.console.rendered, (∀ d ∈ r.1, SetOnGrid d) ∧ ∀ p ∈ r.2, p.Ok relay

/-- What is sent has at most four decimals. -/
def ConsoleEvent.DraftsOnGrid : ConsoleEvent → Prop
  | .sendAll drafts _ => SetOnGrid drafts
  | _ => True

/-- Every confirmation was triggered by a packet of a drone that stored the confirmed gains. -/
def ConfirmedTruly (s : ConsoleSystem) : Prop :=
  ∀ c ∈ s.console.confirmations, c.2.producedBy = fun a => (c.1 a).stored

/-- The effects compare a sent set only with a packet of a drone that stored it, or with one whose
reported gains are far apart from it. -/
def NoNearMiss (relay : ℚ → CDouble) (s : ConsoleSystem) : ConsoleEvent → Prop
  | .effects => ∀ sent p, s.console.rendered = some (some sent, some p) →
    (p.producedBy = fun a => (sent a).stored) ∨ FarApart (gainPacket relay p.producedBy).reported sent
  | _ => True

variable {relay : ℚ → CDouble} {s : ConsoleSystem}

theorem gridInv_start (drone : FlightController CFloat) : GridInv relay (consoleStart drone) := by
  refine ⟨?_, ?_, ?_, ?_, ?_⟩ <;> simp [consoleStart]

theorem GridInv.console (h : GridInv relay s) {c : ConsoleState} (hl : c.latest = s.console.latest)
    (hp : ∀ d ∈ c.pending, SetOnGrid d) (hs : ∀ x ∈ c.sending, SetOnGrid x.1)
    (hr : ∀ r ∈ c.rendered, (∀ d ∈ r.1, SetOnGrid d) ∧ ∀ p ∈ r.2, p.Ok relay) :
    GridInv relay { s with console := c } :=
  ⟨h.packets, hl ▸ h.latest, hp, hs, hr⟩

theorem GridInv.resume (h : GridInv relay s) (i : ℕ) :
    GridInv relay { s with console := s.console.resume i } := by
  unfold ConsoleState.resume
  split
  · rename_i sentPid sent hi
    have hmem := h.sending _ (List.mem_of_getElem? hi)
    have herase : ∀ x ∈ s.console.sending.eraseIdx i, SetOnGrid x.1 :=
      fun x hx => h.sending x (List.mem_of_mem_eraseIdx hx)
    dsimp only
    split
    · refine h.console rfl ?_ herase h.rendered
      intro d hd
      rwa [← Option.some.inj hd]
    · exact h.console rfl h.pending herase h.rendered
  · exact h

theorem initEffect_eq (latest : Option GainPacket) (c : ConsoleState) :
    ∃ l i, c.initEffect latest = { c with lastConfirmed := l, initialized := i } := by
  unfold ConsoleState.initEffect
  split
  · split
    · exact ⟨_, _, rfl⟩
    · exact ⟨_, _, rfl⟩
  · exact ⟨_, _, rfl⟩

/-- The effects leave what was received and what waits, clear the pending set at most, and use up
what was rendered. -/
theorem effects_frame (c : ConsoleState) :
    c.effects.latest = c.latest ∧ (c.effects.pending = c.pending ∨ c.effects.pending = none) ∧
      c.effects.sending = c.sending ∧ (c.effects.rendered = none ∨ c.rendered = none) := by
  unfold ConsoleState.effects
  split
  · rename_i pending latest _
    obtain ⟨l, i, h⟩ := initEffect_eq latest { c with rendered := none }
    rw [h]
    unfold ConsoleState.confirmEffect
    split
    · split
      · exact ⟨rfl, Or.inr rfl, rfl, Or.inl rfl⟩
      · exact ⟨rfl, Or.inl rfl, rfl, Or.inl rfl⟩
    · exact ⟨rfl, Or.inl rfl, rfl, Or.inl rfl⟩
  · rename_i hr
    exact ⟨rfl, Or.inl rfl, rfl, Or.inr hr⟩

theorem effects_confirmations (c : ConsoleState) :
    c.effects.confirmations =
      match c.rendered with
      | some (some sent, some p) =>
        if pidDraftsMatch p.reported sent then (sent, p) :: c.confirmations else c.confirmations
      | _ => c.confirmations := by
  unfold ConsoleState.effects
  cases hr : c.rendered with
  | none => rfl
  | some r =>
    obtain ⟨pending, latest⟩ := r
    obtain ⟨l, i, h⟩ := initEffect_eq latest { c with rendered := none }
    dsimp only
    rw [h]
    cases pending with
    | none => rfl
    | some sent =>
      cases latest with
      | none => rfl
      | some p =>
        simp only [ConsoleState.confirmEffect]
        split
        · rfl
        · rfl

/-! ## One step -/

theorem GridInv.effects (h : GridInv relay s) : GridInv relay { s with console := s.console.effects } := by
  obtain ⟨h1, h2, h3, h4⟩ := effects_frame s.console
  refine h.console h1 ?_ (h3 ▸ h.sending) ?_
  · rcases h2 with h2 | h2
    · exact h2 ▸ h.pending
    · rw [h2]
      rintro d ⟨⟩
  · rcases h4 with h4 | h4
    · rw [h4]
      rintro r ⟨⟩
    · have h5 : s.console.effects.rendered = s.console.rendered := by
        unfold ConsoleState.effects
        rw [h4]
        exact h4
      exact h5 ▸ h.rendered

theorem setOnGrid_gainPacket (hrelay : RelaysDecimals relay) {g : PidSet CFloat}
    (hg : ∀ a, (g a).AllFinite) : SetOnGrid (gainPacket relay g).reported := by
  intro a x
  obtain ⟨h1, h2, h3⟩ := hg a
  cases x with
  | kp => exact hrelay _ h1
  | ki => exact hrelay _ h2
  | kd => exact hrelay _ h3

theorem gridInv_step (hrelay : RelaysDecimals relay) {e : ConsoleEvent} (h : GridInv relay s)
    (he : e.DraftsOnGrid) : GridInv relay (consoleStep relay s e) := by
  cases e with
  | sendAll drafts ok =>
    refine ⟨h.packets, h.latest, h.pending, ?_, h.rendered⟩
    intro x hx
    rcases List.mem_append.1 hx with hx | hx
    · exact h.sending x hx
    · rw [List.mem_singleton.1 hx]
      exact he
  | resume i => exact h.resume i
  | timeout =>
    simp only [consoleStep, ConsoleState.timeout]
    split
    · refine h.console rfl ?_ h.sending h.rendered
      rintro d ⟨⟩
    · exact h
  | render =>
    refine h.console rfl h.pending h.sending ?_
    rintro r ⟨⟩
    exact ⟨h.pending, h.latest⟩
  | effects => exact h.effects
  | deliver i =>
    simp only [consoleStep]
    split
    · split
      · exact ⟨h.packets, h.latest, h.pending, h.sending, h.rendered⟩
      · exact h
    · exact h
  | report =>
    simp only [consoleStep]
    split
    · rename_i hfin
      have hg : ∀ a, (s.drone.gains a).AllFinite := by
        intro a
        exact of_decide_eq_true (List.all_eq_true.1 hfin a (by cases a <;> simp [pidAxes]))
      refine { h with packets := ?_ }
      intro p hp
      rcases List.mem_append.1 hp with hp | hp
      · exact h.packets p hp
      · rw [List.mem_singleton.1 hp]
        exact ⟨rfl, setOnGrid_gainPacket hrelay hg⟩
    · exact h
  | arrive i =>
    simp only [consoleStep]
    split
    · rename_i p hi
      refine ⟨h.packets, ?_, h.pending, h.sending, h.rendered⟩
      intro q hq
      rw [← Option.some.inj hq]
      exact h.packets p (List.mem_of_getElem? hi)
    · exact h

theorem confirmations_frame {e : ConsoleEvent} (he : e ≠ .effects) :
    (consoleStep relay s e).console.confirmations = s.console.confirmations := by
  cases e with
  | effects => exact absurd rfl he
  | sendAll drafts ok => rfl
  | resume i =>
    simp only [consoleStep, ConsoleState.resume]
    split
    · split
      · rfl
      · rfl
    · rfl
  | timeout =>
    simp only [consoleStep, ConsoleState.timeout]
    split
    · rfl
    · rfl
  | render => rfl
  | deliver i =>
    simp only [consoleStep]
    split
    · split
      · rfl
      · rfl
    · rfl
  | report =>
    simp only [consoleStep]
    split
    · rfl
    · rfl
  | arrive i =>
    simp only [consoleStep]
    split
    · rfl
    · rfl

/-- A step confirms truly exactly when it meets the condition. -/
theorem confirmedTruly_step {e : ConsoleEvent} (h : GridInv relay s) (hc : ConfirmedTruly s) :
    ConfirmedTruly (consoleStep relay s e) ↔ NoNearMiss relay s e := by
  by_cases he : e = .effects
  · subst he
    have hconf : (consoleStep relay s .effects).console.confirmations = _ :=
      effects_confirmations s.console
    unfold ConfirmedTruly NoNearMiss
    rw [hconf]
    split
    · rename_i sent p hr
      obtain ⟨hsent, hp⟩ := h.rendered _ hr
      obtain ⟨hpacket, hgrid⟩ := hp p rfl
      have hcond : (∀ sent' p', s.console.rendered = some (some sent', some p') →
          (p'.producedBy = fun a => (sent' a).stored) ∨
            FarApart (gainPacket relay p'.producedBy).reported sent') ↔
          ((p.producedBy = fun a => (sent a).stored) ∨ FarApart p.reported sent) := by
        rw [hr]
        constructor
        · intro h1
          have h2 := h1 sent p rfl
          rwa [← hpacket] at h2
        · rintro h1 _ _ ⟨⟩
          rwa [← hpacket]
      rw [hcond, ← match_sound_iff hgrid (hsent sent rfl)]
      by_cases hm : pidDraftsMatch p.reported sent = true
      · rw [if_pos hm]
        constructor
        · intro h1 _
          exact h1 _ List.mem_cons_self
        · intro h1 c hcm
          rcases List.mem_cons.1 hcm with rfl | hcm
          · exact h1 hm
          · exact hc c hcm
      · rw [if_neg hm]
        exact iff_of_true hc fun h1 => absurd h1 hm
    · rename_i hr
      exact iff_of_true hc fun sent p h1 => absurd h1 (hr sent p)
  · have hn : NoNearMiss relay s e := by
      cases e with
      | effects => exact absurd rfl he
      | _ => trivial
    refine iff_of_true ?_ hn
    unfold ConfirmedTruly
    rw [confirmations_frame he]
    exact hc

/-! ## Runs -/

/-- In every run with gains of four decimals, every confirmation is true exactly when no comparison
is with a packet of other gains that the console reads within the tolerance of the sent ones. Such a
report is taken for the sent set, and no other. -/
theorem confirmation_sound_iff {relay : ℚ → CDouble} (hrelay : RelaysDecimals relay)
    (drone : FlightController CFloat) :
    (∀ es : List ConsoleEvent, (∀ e ∈ es, e.DraftsOnGrid) →
      (AllSteps (consoleStep relay) (fun s e => ConfirmedTruly (consoleStep relay s e))
          (consoleStart drone) es ↔
        AllSteps (consoleStep relay) (NoNearMiss relay) (consoleStart drone) es)) ∧
    ∀ g s : PidSet CDouble, SetOnGrid g → SetOnGrid s →
      ((pidDraftsMatch g s = true → g = s) ↔ (g = s ∨ FarApart g s)) := by
  constructor
  · intro es hes
    refine allSteps_iff_of_invariant (fun s => GridInv relay s ∧ ConfirmedTruly s)
      ⟨gridInv_start drone, fun c hc => by cases hc⟩ hes ?_ ?_
    · rintro s e - ⟨h, hc⟩
      exact confirmedTruly_step h hc
    · rintro s e he ⟨h, -⟩ hc'
      exact ⟨gridInv_step hrelay h he, hc'⟩
  · intro g s hg hs
    exact match_sound_iff hg hs

def zeroDrone : FlightController CFloat := ⟨pidZero, pidZero, pidZero, 0⟩

/-- Gains that differ from those of the drone in one. -/
def sentGains (ki : ℚ) : PidSet CDouble
  | .pitch => ⟨ofRat 0, ofRat ki, ofRat 0⟩
  | _ => ⟨ofRat 0, ofRat 0, ofRat 0⟩

/-- A report reaches the console, then gains are sent and all three datagrams are lost. -/
def lostUpdate (ki : ℚ) : List ConsoleEvent :=
  [.report, .arrive 0, .sendAll (sentGains ki) fun _ => true, .resume 0, .render, .effects]

theorem relaysDecimals_ofRat : RelaysDecimals ofRat := fun _ _ => ⟨_, rfl⟩

theorem setOnGrid_sentGains (k : ℤ) : SetOnGrid (sentGains (k / 10 ^ 4)) := by
  have h0 : OnGrid (ofRat 0) := ⟨0, by norm_num⟩
  intro a x
  cases a with
  | pitch =>
    cases x with
    | ki => exact ⟨k, rfl⟩
    | _ => exact h0
  | _ => cases x <;> exact h0

theorem draftsOnGrid_lostUpdate (k : ℤ) : ∀ e ∈ lostUpdate (k / 10 ^ 4), e.DraftsOnGrid := by
  simp [lostUpdate, ConsoleEvent.DraftsOnGrid, setOnGrid_sentGains]

theorem confirmation_sound_iff_lost_update :
    (AllSteps (consoleStep ofRat) (fun s e => ConfirmedTruly (consoleStep ofRat s e))
        (consoleStart zeroDrone) (lostUpdate ((5000 : ℤ) / 10 ^ 4)) ↔
      AllSteps (consoleStep ofRat) (NoNearMiss ofRat) (consoleStart zeroDrone)
        (lostUpdate ((5000 : ℤ) / 10 ^ 4))) ∧
    ((pidDraftsMatch (sentGains ((0 : ℤ) / 10 ^ 4)) (sentGains ((5000 : ℤ) / 10 ^ 4)) = true →
        sentGains ((0 : ℤ) / 10 ^ 4) = sentGains ((5000 : ℤ) / 10 ^ 4)) ↔
      (sentGains ((0 : ℤ) / 10 ^ 4) = sentGains ((5000 : ℤ) / 10 ^ 4) ∨
        FarApart (sentGains ((0 : ℤ) / 10 ^ 4)) (sentGains ((5000 : ℤ) / 10 ^ 4)))) :=
  ⟨(confirmation_sound_iff relaysDecimals_ofRat zeroDrone).1 _ (draftsOnGrid_lostUpdate 5000),
    (confirmation_sound_iff relaysDecimals_ofRat zeroDrone).2 _ _ (setOnGrid_sentGains 0)
      (setOnGrid_sentGains 5000)⟩

/-- With `ki` one step away, the old report confirms gains that never arrived. -/
theorem confirmed_without_delivery :
    ¬ ∀ (drone : FlightController CFloat) (es : List ConsoleEvent), (∀ e ∈ es, e.DraftsOnGrid) →
      ConfirmedTruly (runFrom (consoleStep ofRat) (consoleStart drone) es) := by
  intro h
  have h1 := h zeroDrone (lostUpdate ((1 : ℤ) / 10 ^ 4)) (draftsOnGrid_lostUpdate 1)
  have hhead : ((runFrom (consoleStep ofRat) (consoleStart zeroDrone)
      (lostUpdate ((1 : ℤ) / 10 ^ 4))).console.confirmations.head?.map
        fun c => ((c.2.producedBy .pitch).ki, (c.1 .pitch).ki)) =
          some (ofRat 0, ofRat (((1 : ℤ) : ℚ) / 10 ^ 4)) := by
    decide +kernel
  obtain ⟨c, hc, hval⟩ := Option.map_eq_some_iff.1 hhead
  have h2 := h1 c (List.mem_of_mem_head? hc)
  obtain ⟨h3, h4⟩ := Prod.mk.inj hval
  rw [h2] at h3
  have h5 : toFloat (c.1 .pitch).ki = ofRat 0 := h3
  rw [h4] at h5
  exact absurd h5 (by decide +kernel)

-- a step that the tolerance does not cover, because of how the decimals round
example : gainMatches (ofRat (12001 / 10000)) (ofRat (12 / 10)) = true ∧
    gainMatches (ofRat (801 / 10000)) (ofRat (8 / 100)) = false := by decide +kernel

end EdnaDrone
