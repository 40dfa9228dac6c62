import EdnaDrone.UdpClient

/-!
# Connecting again

The first connection has the socket of the constructor and one receive loop. A Disconnect closes the
socket for good, and a loop that has not tested `_running` by the next Connect lives on beside the new
one.
-/

namespace EdnaDrone

open Lib

variable {decode : Bytes → Bytes} {loads : Bytes → Option JsonDict} {s : ClientSystem}

/-! ## What a press and an iteration do -/

theorem sockOpen_sendRaw (c : UdpClient) (data : Bytes) :
    (c.sendRaw data).sockOpen = c.sockOpen := by
  unfold UdpClient.sendRaw
  split
  · rfl
  · rfl

/-- A press of Disconnect. -/
theorem toggleConnect_stop (h : s.connected = true) (spawns : Bool) :
    toggleConnect spawns s = { s with client := s.client.stop, connected := false } := by
  unfold toggleConnect
  rw [if_pos h]

/-- A press of Connect. -/
theorem toggleConnect_start (h : s.connected = false) (spawns : Bool) :
    (toggleConnect spawns s).connected = spawns ∧
      (toggleConnect spawns s).client.sockOpen = s.client.sockOpen ∧
        (toggleConnect spawns s).client.running = true ∧
          (toggleConnect spawns s).loops =
            if spawns then s.loops ++ [.atTest] else s.loops := by
  unfold toggleConnect clientStart
  rw [if_neg (ne_true_of_eq_false h)]
  cases spawns with
  | true => exact ⟨rfl, sockOpen_sendRaw s.client _, rfl, rfl⟩
  | false => exact ⟨h, sockOpen_sendRaw s.client _, rfl, rfl⟩

theorem recvLoopTest_eq (i : ℕ) : ∃ loops, recvLoopTest i s = { s with loops := loops } := by
  unfold recvLoopTest
  split
  · exact ⟨_, rfl⟩
  · exact ⟨_, rfl⟩

variable (decode loads) in
theorem recvLoopBody_eq (i : ℕ) (data : Option Bytes) :
    ∃ latest, recvLoopBody decode loads i data s =
      { s with client := { s.client with latest := latest }, loops := s.loops.set i .atTest } := by
  unfold recvLoopBody
  split
  · exact ⟨_, rfl⟩
  · rename_i hbody
    refine ⟨s.client.latest, ?_⟩
    have hset : s.loops.set i .atTest = s.loops := by
      rcases Nat.lt_or_ge i s.loops.length with hi | hi
      · cases hpos : s.loops[i] with
        | atTest => rw [← hpos, List.set_getElem_self]
        | inBody =>
          rw [List.getElem?_eq_getElem hi, hpos] at hbody
          exact absurd rfl hbody
      · exact List.set_eq_of_length_le hi
    rw [hset]

/-- A loop goes on as long as the flag is set, and ends otherwise. -/
theorem loops_recvLoopTest {i : ℕ} (h : s.loops[i]? = some .atTest) :
    (recvLoopTest i s).loops =
      if s.client.running then s.loops.set i .inBody else s.loops.eraseIdx i := by
  unfold recvLoopTest
  rw [h]

theorem length_loops_recvLoopTest (h : s.client.running = true) (i : ℕ) :
    (recvLoopTest i s).loops.length = s.loops.length := by
  unfold recvLoopTest
  split
  · rw [if_pos h, List.length_set]
  · rfl

theorem recvLoopTest_of_nil (h : s.loops = []) (i : ℕ) : recvLoopTest i s = s := by
  unfold recvLoopTest
  rw [h, List.getElem?_nil]

/-- What the steps of the loops leave alone. -/
structure LoopFrame (s s' : ClientSystem) : Prop where
  connected : s'.connected = s.connected
  sockOpen : s'.client.sockOpen = s.client.sockOpen
  running : s'.client.running = s.client.running
  nil : s.loops = [] → s'.loops = []
  length : s.client.running = true → s'.loops.length = s.loops.length

variable (decode loads) in
theorem loopFrame_step {e : ClientEvent} (he : e.isPress = false) :
    LoopFrame s (clientStep decode loads s e) := by
  cases e with
  | press spawns => exact absurd he.symm Bool.false_ne_true
  | test i =>
    show LoopFrame s (recvLoopTest i s)
    have hnil : s.loops = [] → (recvLoopTest i s).loops = [] := by
      intro hnil
      rw [recvLoopTest_of_nil hnil, hnil]
    have hlen := fun hrun => length_loops_recvLoopTest (s := s) hrun i
    obtain ⟨loops, heq⟩ := recvLoopTest_eq (s := s) i
    rw [heq] at hnil hlen ⊢
    exact ⟨rfl, rfl, rfl, hnil, hlen⟩
  | body i data =>
    show LoopFrame s (recvLoopBody decode loads i data s)
    obtain ⟨latest, heq⟩ := recvLoopBody_eq decode loads (s := s) i data
    rw [heq]
    refine ⟨rfl, rfl, rfl, ?_, fun _ => List.length_set ..⟩
    intro hnil
    show s.loops.set i .atTest = []
    rw [hnil]
    rfl

/-! ## The law -/

/-- Every receive loop ends with its current iteration. -/
def LoopsEnd (decode : Bytes → Bytes) (loads : Bytes → Option JsonDict) (s : ClientSystem) : Prop :=
  ∀ i data, (recvLoopTest i (recvLoopBody decode loads i data s)).loops = s.loops.eraseIdx i

theorem loopsEnd_iff : LoopsEnd decode loads s ↔ s.loops = [] ∨ s.client.running = false := by
  -- after its iteration a loop stands at its test
  have htest : ∀ i data, i < s.loops.length →
      (recvLoopTest i (recvLoopBody decode loads i data s)).loops =
        if s.client.running then s.loops.set i .inBody else s.loops.eraseIdx i := by
    intro i data hi
    obtain ⟨latest, h⟩ := recvLoopBody_eq decode loads (s := s) i data
    rw [h, loops_recvLoopTest (List.getElem?_set_self hi)]
    show (if s.client.running = true then _ else _) = _
    rw [List.set_set, List.eraseIdx_set_eq]
  constructor
  · intro h
    by_contra hno
    rw [not_or, Bool.not_eq_false] at hno
    have hpos : 0 < s.loops.length := List.length_pos_of_ne_nil hno.1
    have hend := (htest 0 none hpos).symm.trans (h 0 none)
    rw [if_pos hno.2] at hend
    have hlen := congrArg List.length hend
    rw [List.length_set, List.length_eraseIdx_of_lt hpos] at hlen
    omega
  · intro h i data
    rcases Nat.lt_or_ge i s.loops.length with hi | hi
    · rcases h with h | h
      · rw [h] at hi
        exact absurd hi (Nat.not_lt_zero i)
      · rw [htest i data hi, if_neg (ne_true_of_eq_false h)]
    · obtain ⟨latest, hb⟩ := recvLoopBody_eq decode loads (s := s) i data
      rw [hb, List.set_eq_of_length_le hi, List.eraseIdx_of_length_le hi]
      unfold recvLoopTest
      rw [List.getElem?_eq_none hi]

/-- What a connection promises: an open socket and one loop that goes on. -/
structure Survives (decode : Bytes → Bytes) (loads : Bytes → Option JsonDict) (s : ClientSystem) :
    Prop where
  socket : s.connected = true → s.client.sockOpen = true
  one : s.connected = true → s.loops.length = 1 ∧ s.client.running = true
  stops : s.connected = false → LoopsEnd decode loads s

/-- A press that connects after a Disconnect has got no thread and finds no loop alive. -/
def ReconnectsHarmlessly (s : ClientSystem) : ClientEvent → Prop
  | .press spawns =>
    s.connected = false → s.client.sockOpen = false → spawns = false ∧ s.loops = []
  | _ => True

/-! ## Runs -/

/-- In every run, before the first Disconnect only a connection has loops. -/
structure ClientInv (s : ClientSystem) : Prop where
  idle : s.connected = false → s.client.sockOpen = true → s.loops = []
  running : s.connected = true → s.client.running = true

theorem clientInv_loop {e : ClientEvent} (h : ClientInv s) (he : e.isPress = false) :
    ClientInv (clientStep decode loads s e) := by
  have hframe := loopFrame_step decode loads (s := s) he
  constructor
  · intro hno hopen
    rw [hframe.connected] at hno
    rw [hframe.sockOpen] at hopen
    exact hframe.nil (h.idle hno hopen)
  · intro hyes
    rw [hframe.connected] at hyes
    exact hframe.running.trans (h.running hyes)

theorem clientInv_step (h : ClientInv s) (e : ClientEvent) :
    ClientInv (clientStep decode loads s e) := by
  cases e with
  | press spawns =>
    show ClientInv (toggleConnect spawns s)
    cases hc : s.connected with
    | true =>
      rw [toggleConnect_stop hc]
      exact ⟨fun _ hopen => absurd hopen Bool.false_ne_true,
        fun hconn => absurd hconn Bool.false_ne_true⟩
    | false =>
      obtain ⟨hconn, hopen, hrun, hloops⟩ := toggleConnect_start hc spawns
      constructor
      · intro hno hyes
        rw [hconn] at hno
        rw [hopen] at hyes
        rw [hloops, if_neg (ne_true_of_eq_false hno)]
        exact h.idle hc hyes
      · intro _
        exact hrun
  | test i => exact clientInv_loop h rfl
  | body i data => exact clientInv_loop h rfl

/-- A Disconnect leaves no loop that goes on. -/
theorem survives_stop (hc : s.connected = true) (spawns : Bool) :
    Survives decode loads (toggleConnect spawns s) := by
  rw [toggleConnect_stop hc]
  exact ⟨fun hconn => absurd hconn Bool.false_ne_true, fun hconn => absurd hconn Bool.false_ne_true,
    fun _ => loopsEnd_iff.2 (Or.inr rfl)⟩

/-- A Connect needs the socket if it gets a thread, and it may find no loop alive. -/
theorem survives_start_iff (hc : s.connected = false) (spawns : Bool) :
    Survives decode loads (toggleConnect spawns s) ↔
      (spawns = true → s.client.sockOpen = true) ∧ s.loops = [] := by
  obtain ⟨hconn, hopen, hrun, hloops⟩ := toggleConnect_start hc spawns
  cases spawns with
  | true =>
    rw [if_pos rfl] at hloops
    constructor
    · intro hs
      have hone := (hs.one hconn).1
      rw [hloops, List.length_append, List.length_singleton, Nat.add_eq_right,
        List.length_eq_zero_iff] at hone
      exact ⟨fun _ => hopen.symm.trans (hs.socket hconn), hone⟩
    · rintro ⟨hsock, hnil⟩
      refine ⟨fun _ => hopen.trans (hsock rfl), fun _ => ⟨?_, hrun⟩, ?_⟩
      · rw [hloops, hnil]
        rfl
      · intro hno
        exact absurd (hconn.symm.trans hno) Bool.true_eq_false_eq_False
  | false =>
    rw [if_neg Bool.false_ne_true] at hloops
    constructor
    · intro hs
      rcases loopsEnd_iff.1 (hs.stops hconn) with hnil | hno
      · exact ⟨fun hyes => absurd hyes Bool.false_ne_true, hloops.symm.trans hnil⟩
      · exact absurd (hno.symm.trans hrun) Bool.false_ne_true
    · rintro ⟨-, hnil⟩
      refine ⟨?_, ?_, fun _ => loopsEnd_iff.2 (Or.inl (hloops.trans hnil))⟩
      · intro hyes
        exact absurd (hconn.symm.trans hyes) Bool.false_ne_true
      · intro hyes
        exact absurd (hconn.symm.trans hyes) Bool.false_ne_true

/-- A press keeps the promise exactly when it meets the condition. -/
theorem survives_press_iff (hinv : ClientInv s) (spawns : Bool) :
    Survives decode loads (toggleConnect spawns s) ↔
      (s.connected = false → s.client.sockOpen = false → spawns = false ∧ s.loops = []) := by
  cases hc : s.connected with
  | true => exact iff_of_true (survives_stop hc spawns) fun hno => absurd hno Bool.true_eq_false_eq_False
  | false =>
    rw [survives_start_iff hc]
    cases ho : s.client.sockOpen with
    | true =>
      -- without a Disconnect before it, no loop is alive
      refine iff_of_true ⟨fun _ => rfl, hinv.idle hc ho⟩ fun _ hno => ?_
      exact absurd hno Bool.true_eq_false_eq_False
    | false =>
      constructor
      · rintro ⟨hsock, hnil⟩ _ _
        exact ⟨eq_false_of_ne_true fun hyes => Bool.false_ne_true (hsock hyes), hnil⟩
      · intro hcond
        obtain ⟨hspawns, hnil⟩ := hcond rfl rfl
        rw [hspawns]
        exact ⟨fun hyes => absurd hyes Bool.false_ne_true, hnil⟩

/-- The loops keep the promise. -/
theorem survives_loop {e : ClientEvent} (hs : Survives decode loads s) (he : e.isPress = false) :
    Survives decode loads (clientStep decode loads s e) := by
  have hframe := loopFrame_step decode loads (s := s) he
  constructor
  · intro hyes
    rw [hframe.connected] at hyes
    exact hframe.sockOpen.trans (hs.socket hyes)
  · intro hyes
    rw [hframe.connected] at hyes
    obtain ⟨hone, hrun⟩ := hs.one hyes
    exact ⟨(hframe.length hrun).trans hone, hframe.running.trans hrun⟩
  · intro hno
    rw [hframe.connected] at hno
    rcases loopsEnd_iff.1 (hs.stops hno) with hnil | hrun
    · exact loopsEnd_iff.2 (Or.inl (hframe.nil hnil))
    · exact loopsEnd_iff.2 (Or.inr (hframe.running.trans hrun))

theorem survives_step_iff (hinv : ClientInv s) (hs : Survives decode loads s) (e : ClientEvent) :
    Survives decode loads (clientStep decode loads s e) ↔ ReconnectsHarmlessly s e := by
  cases e with
  | press spawns => exact survives_press_iff hinv spawns
  | test i => exact iff_of_true (survives_loop hs rfl) trivial
  | body i data => exact iff_of_true (survives_loop hs rfl) trivial

/-! ## When every thread starts -/

/-- How many presses the promise outlives from here. -/
def pressesLeft (s : ClientSystem) : ℕ :=
  if s.client.sockOpen then if s.connected then 1 else 2 else 0

theorem connected_open_loop {e : ClientEvent} (h : s.connected = true → s.client.sockOpen = true)
    (he : e.isPress = false) :
    (clientStep decode loads s e).connected = true →
      (clientStep decode loads s e).client.sockOpen = true := by
  have hframe := loopFrame_step decode loads (s := s) he
  rw [hframe.connected, hframe.sockOpen]
  exact h

/-- A harmless step leaves no connection without its socket. -/
theorem connected_open_step {e : ClientEvent} (h : s.connected = true → s.client.sockOpen = true)
    (hok : ReconnectsHarmlessly s e) :
    (clientStep decode loads s e).connected = true →
      (clientStep decode loads s e).client.sockOpen = true := by
  cases e with
  | press spawns =>
    show (toggleConnect spawns s).connected = true → (toggleConnect spawns s).client.sockOpen = true
    cases hc : s.connected with
    | true =>
      rw [toggleConnect_stop hc]
      exact fun hno => absurd hno Bool.false_ne_true
    | false =>
      obtain ⟨hconn, hopen, -, -⟩ := toggleConnect_start hc spawns
      intro hyes
      rw [hopen]
      by_contra hclosed
      have hspawns := (hok hc (eq_false_of_ne_true hclosed)).1
      rw [hconn, hspawns] at hyes
      exact absurd hyes Bool.false_ne_true
  | test i => exact connected_open_loop h rfl
  | body i data => exact connected_open_loop h rfl

variable (decode loads) in
theorem pressesLeft_loop {e : ClientEvent} (he : e.isPress = false) :
    pressesLeft (clientStep decode loads s e) = pressesLeft s := by
  have hframe := loopFrame_step decode loads (s := s) he
  unfold pressesLeft
  rw [hframe.connected, hframe.sockOpen]

variable (decode loads) in
theorem pressesLeft_step {e : ClientEvent} (h : s.connected = true → s.client.sockOpen = true)
    (he : e ≠ .press false) (n : ℕ) :
    ReconnectsHarmlessly s e ∧ n ≤ pressesLeft (clientStep decode loads s e) ↔
      n + (if e.isPress then 1 else 0) ≤ pressesLeft s := by
  cases e with
  | press spawns =>
    have hspawns : spawns = true := by
      cases spawns with
      | true => rfl
      | false => exact absurd rfl he
    subst hspawns
    show _ ∧ n ≤ pressesLeft (toggleConnect true s) ↔ n + 1 ≤ pressesLeft s
    cases hc : s.connected with
    | true =>
      have hok : ReconnectsHarmlessly s (.press true) := fun hno => by
        rw [hc] at hno
        exact absurd hno Bool.true_eq_false_eq_False
      rw [and_iff_right hok, toggleConnect_stop hc]
      unfold pressesLeft
      rw [if_pos (h hc), if_pos hc]
      show n ≤ 0 ↔ n + 1 ≤ 1
      omega
    | false =>
      obtain ⟨hconn, hopen, -, -⟩ := toggleConnect_start hc true
      unfold pressesLeft
      rw [hopen, hconn, hc]
      cases ho : s.client.sockOpen with
      | true =>
        have hok : ReconnectsHarmlessly s (.press true) := fun _ hno => by
          rw [ho] at hno
          exact absurd hno Bool.true_eq_false_eq_False
        rw [and_iff_right hok]
        show n ≤ 1 ↔ n + 1 ≤ 2
        omega
      | false =>
        refine iff_of_false (fun hno => ?_) (Nat.not_succ_le_zero n)
        exact Bool.true_eq_false_eq_False (hno.1 hc ho).1
  | test i =>
    rw [pressesLeft_loop decode loads rfl]
    exact and_iff_right trivial
  | body i data =>
    rw [pressesLeft_loop decode loads rfl]
    exact and_iff_right trivial

theorem harmless_iff_presses {es : List ClientEvent} (hes : ∀ e ∈ es, e ≠ .press false)
    (h : s.connected = true → s.client.sockOpen = true) :
    AllSteps (clientStep decode loads) ReconnectsHarmlessly s es ↔
      es.countP ClientEvent.isPress ≤ pressesLeft s := by
  induction es generalizing s with
  | nil => exact iff_of_true trivial (Nat.zero_le _)
  | cons e es ih =>
    have he : e ≠ .press false := hes e List.mem_cons_self
    have hes' : ∀ x ∈ es, x ≠ .press false := fun x hx => hes x (List.mem_cons_of_mem _ hx)
    rw [allSteps_cons, List.countP_cons, ← pressesLeft_step decode loads h he]
    exact and_congr_right fun hok => ih hes' (connected_open_step h hok)

/-! ## The promise -/

variable (decode loads) in
theorem clientInv_run (es : List ClientEvent) :
    ClientInv (runFrom (clientStep decode loads) clientSystem es) :=
  runFrom_invariant ClientInv ⟨fun _ _ => rfl, fun hno => absurd hno Bool.false_ne_true⟩
    (fun _ e h => clientInv_step h e) es

theorem allSteps_iff_survives (es : List ClientEvent) :
    AllSteps (clientStep decode loads) ReconnectsHarmlessly clientSystem es ↔
      ∀ n, Survives decode loads (runFrom (clientStep decode loads) clientSystem (es.take n)) := by
  have hstart : Survives decode loads clientSystem :=
    ⟨fun hno => absurd hno Bool.false_ne_true, fun hno => absurd hno Bool.false_ne_true,
      fun _ => loopsEnd_iff.2 (Or.inl rfl)⟩
  rw [allSteps_iff_along (fun s => Survives decode loads s ∧ ClientInv s)
    ⟨hstart, clientInv_run decode loads []⟩ ?_ es]
  · exact forall_congr' fun n => and_iff_left (clientInv_run decode loads _)
  · rintro s e ⟨hs, hinv⟩
    rw [survives_step_iff hinv hs]
    exact and_iff_left (clientInv_step hinv e)

/-- In every run, connections keep their promise exactly when no Connect that follows a Disconnect has an
effect: it gets no thread, and no loop is left. When every thread starts, this means at most one
Connect and one Disconnect. -/
theorem survives_reconnects_iff (decode : Bytes → Bytes) (loads : Bytes → Option JsonDict)
    (es : List ClientEvent) :
    ((∀ n, Survives decode loads (runFrom (clientStep decode loads) clientSystem (es.take n))) ↔
      ∀ pre spawns post, es = pre ++ .press spawns :: post →
        ReconnectsHarmlessly (runFrom (clientStep decode loads) clientSystem pre) (.press spawns)) ∧
    ((∀ e ∈ es, e ≠ .press false) →
      ((∀ n, Survives decode loads (runFrom (clientStep decode loads) clientSystem (es.take n))) ↔
        es.countP ClientEvent.isPress ≤ 2)) := by
  constructor
  · rw [← allSteps_iff_survives, allSteps_iff_forall_split]
    constructor
    · intro h pre spawns post hsplit
      exact h pre (.press spawns) post hsplit
    · intro h pre e post hsplit
      cases e with
      | press spawns => exact h pre spawns post hsplit
      | test i => trivial
      | body i data => trivial
  · intro hes
    rw [← allSteps_iff_survives, harmless_iff_presses hes fun hno => absurd hno Bool.false_ne_true]
    rfl

/-- Connect, Disconnect and Connect again, while the first loop waits for a packet. -/
def quickReconnect : List ClientEvent := [.press true, .test 0, .press true, .press true]

/-- The console says that it is connected, with a closed socket and two receive loops. -/
theorem reconnect_has_no_socket :
    ¬ ∀ es : List ClientEvent,
      Survives id (fun _ => none) (runFrom (clientStep id fun _ => none) clientSystem es) := by
  intro h
  have hsocket := (h quickReconnect).socket rfl
  exact absurd hsocket Bool.false_ne_true

end EdnaDrone
