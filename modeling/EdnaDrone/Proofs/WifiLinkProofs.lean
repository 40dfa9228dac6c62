import EdnaDrone.WifiLink
import EdnaDrone.Proofs.StepProofs

/-!
# Telemetry stays with the first sender

Nothing sets the flag of `wifi_server.c`, so it never reports a client, and `telemetry.c` keeps the
first address it has learned over every disconnect.
-/

namespace EdnaDrone

open Lib CNum

section Frames

variable {F : Type} {s : Firmware F}

/-- The client that `telemetry.c` has learned, if any. -/
def TelemetryState.learned (t : TelemetryState F) : Option SockAddr :=
  if t.clientSet then some t.client else none

theorem learned_receive [LT F] [DecidableLT F] [CNum F] [CText F] (hsock : 0 ≤ s.wifi.sock)
    (src : SockAddr) (data : Bytes) :
    (telemetryReceivePidUpdates (some (src, data)) s).telem.learned =
      if recvBuf data = [] then s.telem.learned else some (s.telem.learned.getD src) := by
  unfold telemetryReceivePidUpdates
  rw [if_neg (not_lt.2 hsock)]
  by_cases hbuf : recvBuf data = []
  · simp only [if_pos hbuf]
  · simp only [if_neg hbuf, TelemetryState.learned]
    by_cases hset : s.telem.clientSet = true
    · simp [hset]
    · simp [hset]

variable [Add F] [Sub F] [Mul F] [Div F] [Neg F] [LT F] [DecidableLT F] [LE F] [DecidableLE F]
  [CNum F]

theorem learned_flightCtrlBody (now : ℕ) (snap : Snapshot F) :
    (flightCtrlBody now snap s).telem.learned = s.telem.learned := by
  unfold flightCtrlBody flightControllerUpdate
  dsimp only
  split
  · rfl
  split
  · rfl
  split
  · rfl
  · rfl

variable [CText F]

/-- The learned client moves as `firstStep` says. -/
theorem learned_step (hsock : 0 ≤ s.wifi.sock) (e : Event F) :
    (step s e).telem.learned = firstStep s.telem.learned (.firmware e) := by
  by_cases hin : e.IsInput
  · have hfirst : firstStep s.telem.learned (.firmware e) = s.telem.learned := by
      cases e with
      | recv src data => exact hin.elim
      | _ => rfl
    obtain ⟨ctrl, globals, task, h⟩ := step_input_eq (s := s) hin
    rw [h, hfirst]
  cases e with
  | fcInit now =>
    obtain ⟨fc, task, h⟩ := flightCtrlStart_eq (s := s) now
    simp only [step, h, firstStep]
  | fcAct now =>
    show (flightCtrlAct now s).telem.learned = s.telem.learned
    unfold flightCtrlAct
    split
    · exact learned_flightCtrlBody now _
    · rfl
  | recv src data => exact learned_receive hsock src data
  | _ => exact absurd trivial hin

end Frames

/-! ## Runs -/

/-- What every run of firmware and access point keeps: an open socket, no client in `wifi_server.c`,
and the first sender in `telemetry.c`. -/
structure LinkInv (s : Firmware CFloat) (first : Option SockAddr) : Prop where
  sock : 0 ≤ s.wifi.sock
  unknown : s.wifi.clientKnown = false
  learned : s.telem.learned = first

theorem linkInv_step {s : Firmware CFloat} {first : Option SockAddr} (h : LinkInv s first)
    (e : LinkEvent CFloat) : LinkInv (linkStep s e) (firstStep first e) := by
  cases e with
  | firmware e =>
    have hw : (step s e).wifi = s.wifi := wifi_frame e
    constructor
    · show 0 ≤ (step s e).wifi.sock
      rw [hw]
      exact h.sock
    · show (step s e).wifi.clientKnown = false
      rw [hw]
      exact h.unknown
    · show (step s e).telem.learned = _
      rw [learned_step h.sock, h.learned]
  | staConnected => exact h
  | staDisconnected => exact ⟨h.sock, rfl, h.learned⟩

theorem linkInv_run {sock : ℤ} (hsock : 0 ≤ sock) (es : List (LinkEvent CFloat)) :
    LinkInv (linkRun sock es) (firstSender es) := by
  induction es using List.reverseRecOn with
  | nil => exact ⟨hsock, rfl, rfl⟩
  | append_singleton es e ih =>
    unfold linkRun firstSender
    rw [runFrom_append, runFrom_append]
    exact linkInv_step ih e

/-! ## The two modules -/

theorem LinkInv.clientAddr {s : Firmware CFloat} {first : Option SockAddr} (h : LinkInv s first) :
    wifiServerGetClientAddr s.wifi = none := by
  unfold wifiServerGetClientAddr
  rw [h.unknown]
  rfl

theorem LinkInv.dest {s : Firmware CFloat} {first : Option SockAddr} (h : LinkInv s first)
    (a b : Bool) :
    (telemetrySend a b s).map SendTo.dest = if a && b then first else none := by
  have hl := h.learned
  unfold TelemetryState.learned at hl
  unfold telemetrySend telemetryReport
  rw [← hl]
  by_cases hset : s.telem.clientSet = true
  · have hno : ¬ (s.wifi.sock < 0 ∨ s.telem.clientSet = false) := by
      simp [hset, h.sock]
    rw [if_neg hno, if_pos hset]
    split
    · rfl
    · rfl
  · have hyes : s.wifi.sock < 0 ∨ s.telem.clientSet = false := .inr (by simpa using hset)
    rw [if_pos hyes, if_neg hset, ite_self]
    rfl

theorem LinkInv.sendsTo_iff {s : Firmware CFloat} {first c : Option SockAddr} (h : LinkInv s first) :
    SendsTo s c ↔ first = c := by
  constructor
  · intro hs
    have h1 := hs true true
    rwa [h.dest] at h1
  · rintro rfl a b
    exact h.dest a b

theorem noClient_step {e : LinkEvent CFloat} (he : ¬ e.IsDatagram) :
    newestStep none e = none ∧ firstStep none e = none := by
  cases e with
  | firmware e =>
    cases e with
    | recv src data => exact absurd trivial he
    | _ => exact ⟨rfl, rfl⟩
  | _ => exact ⟨rfl, rfl⟩

theorem clients_of_no_datagram {es : List (LinkEvent CFloat)} (h : ∀ e ∈ es, ¬ e.IsDatagram) :
    newestClient es = none ∧ firstSender es = none := by
  constructor
  · refine (allSteps_of_forall h).invariant (fun c => c = none) rfl ?_
    rintro c e he rfl
    exact (noClient_step he).1
  · refine (allSteps_of_forall h).invariant (fun c => c = none) rfl ?_
    rintro c e he rfl
    exact (noClient_step he).2

/-- Right after a datagram there is a client. -/
theorem newestClient_of_datagram (es : List (LinkEvent CFloat)) {e : LinkEvent CFloat}
    (he : e.IsDatagram) : newestClient (es ++ [e]) ≠ none := by
  unfold newestClient
  rw [runFrom_append]
  cases e with
  | firmware e =>
    cases e with
    | recv src data => exact Option.some_ne_none src
    | _ => exact he.elim
  | _ => exact he.elim

/-- Telemetry and access point follow the current client through a whole run exactly when no datagram
is ever received. Telemetry alone goes to the current client exactly where that is the first sender. -/
theorem telemetry_follows_client_iff {sock : ℤ} (hsock : 0 ≤ sock) (es : List (LinkEvent CFloat)) :
    ((∀ n, FollowsClient (linkRun sock (es.take n)) (newestClient (es.take n))) ↔
      ∀ e ∈ es, ¬ e.IsDatagram) ∧
    (SendsTo (linkRun sock es) (newestClient es) ↔ firstSender es = newestClient es) := by
  refine ⟨⟨fun h e he hd => ?_, fun h n => ?_⟩, (linkInv_run hsock es).sendsTo_iff⟩
  · obtain ⟨pre, post, rfl⟩ := List.append_of_mem he
    have htake : (pre ++ e :: post).take (pre.length + 1) = pre ++ [e] := by
      rw [List.append_cons]
      exact List.take_left' (by simp)
    have hf := h (pre.length + 1)
    rw [htake] at hf
    have hnone := hf.clientAddr.symm.trans (linkInv_run hsock (pre ++ [e])).clientAddr
    exact newestClient_of_datagram pre hd hnone
  · have hpre : ∀ e ∈ es.take n, ¬ e.IsDatagram := fun e he => h e (List.mem_of_mem_take he)
    obtain ⟨hnew, hfirst⟩ := clients_of_no_datagram hpre
    have hinv := linkInv_run hsock (es.take n)
    rw [hnew]
    exact ⟨hinv.clientAddr, hinv.sendsTo_iff.2 hfirst⟩

def firstConsole : SockAddr := ⟨0x0204a8c0, 50000⟩
def secondConsole : SockAddr := ⟨0x0304a8c0, 50000⟩

/-- One console, and no disconnect. -/
theorem telemetry_follows_client_iff_one_console :
    SendsTo (linkRun 3 [.firmware (.recv firstConsole (ascii "\x7b\x7d"))])
      (newestClient (F := CFloat) [.firmware (.recv firstConsole (ascii "\x7b\x7d"))]) :=
  (telemetry_follows_client_iff (by norm_num) _).2.2 (by decide +kernel)

/-- A console sends a datagram and disconnects, and another one sends a datagram: the telemetry goes to
the first one, and `wifi_server_get_client_addr` has no client for anybody. -/
theorem telemetry_sent_to_stale_client :
    (¬ ∀ (sock : ℤ) (es : List (LinkEvent CFloat)), 0 ≤ sock →
      wifiServerGetClientAddr (linkRun sock es).wifi = newestClient es) ∧
    ¬ ∀ (sock : ℤ) (es : List (LinkEvent CFloat)), 0 ≤ sock →
      SendsTo (linkRun sock es) (newestClient es) := by
  let es : List (LinkEvent CFloat) :=
    [.firmware (.recv firstConsole (ascii "\x7b\x7d")), .staDisconnected,
      .firmware (.recv secondConsole (ascii "\x7b\x7d"))]
  constructor
  · intro h
    have h1 := h 3 es (by norm_num)
    revert h1
    decide +kernel
  · intro h
    have h1 := h 3 es (by norm_num) true true
    revert h1
    decide +kernel

end EdnaDrone
