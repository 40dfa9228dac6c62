import EdnaDrone.ConsoleRuntime

/-!
# Where PID updates go

A `start_telemetry` while a runtime exists changes nothing and returns the status of that runtime. So
the gains go to the endpoint that the most recent status names, which is the one that the first start
since the last stop asked for.
-/

namespace EdnaDrone

open Lib CNum

variable {m : RuntimeMutex} {s : ConsoleSession}

/-! ## What each command does -/

/-- The socket is connected to the endpoint of the configuration. -/
theorem openSocket_peer {config : TelemetryConfig} {calls : StartCalls} {socket : UdpSocket}
    (h : (openSocket config calls).1 = .ok socket) : socket.peer = config.endpoint := by
  unfold openSocket at h
  split at h
  · cases h
  split at h
  · cases h
  dsimp only at h
  split at h
  · cases h
  split at h
  · cases h
  split at h
  · cases h
  · cases h
    rfl

/-- The four ways in which `start_telemetry` can end. -/
theorem startTelemetry_cases (config : TelemetryConfig) (calls : StartCalls) (m : RuntimeMutex) :
    (∃ err, (startTelemetry config calls m).result = some (.error err) ∧
      (startTelemetry config calls m).state = m) ∨
    (∃ r, m.poisoned = false ∧ m.runtime = some r ∧
      startTelemetry config calls m = ⟨m, some (.ok (statusFromRuntime r true)), []⟩) ∨
    (∃ r, m.poisoned = false ∧ m.runtime = none ∧ r.config = config ∧
      r.socket.peer = config.endpoint ∧
      (startTelemetry config calls m).state = { m with runtime := some r } ∧
      (startTelemetry config calls m).result = some (.ok (statusFromRuntime r true))) ∨
    (m.poisoned = false ∧ m.runtime = none ∧ (startTelemetry config calls m).result = none ∧
      (startTelemetry config calls m).state = { m with poisoned := true }) := by
  unfold startTelemetry
  cases hp : m.poisoned with
  | true => exact Or.inl ⟨_, rfl, rfl⟩
  | false =>
    rw [if_neg Bool.false_ne_true]
    cases hr : m.runtime with
    | some r => exact Or.inr (Or.inl ⟨r, rfl, rfl, rfl⟩)
    | none =>
      rcases hopen : openSocket config calls with ⟨err | socket, sent⟩
      · exact Or.inl ⟨err, rfl, rfl⟩
      · refine Or.inr (Or.inr ?_)
        dsimp only
        split
        · have hpeer : socket.peer = config.endpoint := openSocket_peer (congrArg Prod.fst hopen)
          exact Or.inl ⟨⟨config, socket, none⟩, rfl, rfl, rfl, hpeer, rfl, rfl⟩
        · exact Or.inr ⟨rfl, rfl, rfl, rfl⟩

theorem startTelemetry_error {config : TelemetryConfig} {calls : StartCalls} {err : String}
    (h : (startTelemetry config calls m).result = some (.error err)) :
    (startTelemetry config calls m).state = m := by
  rcases startTelemetry_cases config calls m with
    ⟨-, -, hstate⟩ | ⟨r, -, -, hout⟩ | ⟨r, -, -, -, -, -, hres⟩ | ⟨-, -, hres, -⟩
  · exact hstate
  · rw [hout] at h
    cases h
  · rw [hres] at h
    cases h
  · rw [hres] at h
    cases h

/-- The status is that of the runtime in place, or of a new one for the configuration. -/
theorem startTelemetry_ok {config : TelemetryConfig} {calls : StartCalls} {status : TelemetryStatus}
    (h : (startTelemetry config calls m).result = some (.ok status)) :
    (∃ r, m.poisoned = false ∧ m.runtime = some r ∧ status.endpoint = r.config.endpoint) ∨
      (m.runtime = none ∧ status.endpoint = config.endpoint) := by
  rcases startTelemetry_cases config calls m with
    ⟨err, hres, -⟩ | ⟨r, hp, hr, hout⟩ | ⟨r, -, hr, hconfig, -, -, hres⟩ | ⟨-, -, hres, -⟩
  · rw [hres] at h
    cases h
  · rw [hout] at h
    cases h
    exact Or.inl ⟨r, hp, hr, rfl⟩
  · rw [hres] at h
    cases h
    rw [← hconfig]
    exact Or.inr ⟨hr, rfl⟩
  · rw [hres] at h
    cases h

/-- Only a `start_telemetry` leaves another state than it finds, or a `stop_telemetry`. -/
theorem sendPidCommand_state (serF32 : CFloat → Bytes) (u : PidUpdate) (send : Except String Unit)
    (m : RuntimeMutex) : (sendPidCommand serF32 u send m).state = m := by
  unfold sendPidCommand
  split
  · rfl
  · split
    · rfl
    · rfl
  · rfl

theorem stopTelemetry_idle (joins : Bool) (m : RuntimeMutex) :
    (stopTelemetry joins m).state.poisoned = true ∨ (stopTelemetry joins m).state.runtime = none := by
  unfold stopTelemetry
  split
  · rename_i hp
    exact Or.inl hp
  · split
    · exact Or.inr rfl
    · rename_i hr
      exact Or.inr hr

/-- What `send_pid_update` does with a payload depends on the lock and on whether there is a runtime. -/
theorem sendPidUpdate_lock {serF32 : CFloat → Bytes} {lock : Option Bool} {u : PidUpdate}
    {payload : Bytes} (h : sendPidUpdate serF32 lock u = .ok payload) :
    lock = some true := by
  unfold sendPidUpdate sendUpdate at h
  split at h
  · cases h
  split at h
  · cases h
  match lock with
  | some true => rfl
  | some false => cases h
  | none => cases h

/-- A send that returns `Ok` has sent its payload to the peer of the runtime. -/
theorem sendPidCommand_ok {serF32 : CFloat → Bytes} {u : PidUpdate} {send : Except String Unit}
    (h : (sendPidCommand serF32 u send m).result = some (.ok ())) :
    ∃ r payload, m.runtime = some r ∧ sendPidUpdate serF32 (some true) u = .ok payload ∧
      (sendPidCommand serF32 u send m).sent = [⟨r.socket.peer, payload⟩] := by
  unfold sendPidCommand at h ⊢
  split at h
  · cases h
  · rename_i payload r hpayload hr
    split at h
    · refine ⟨r, payload, hr, ?_, ?_⟩
      · rw [← sendPidUpdate_lock hpayload]
        exact hpayload
      · rfl
    · cases h
  · cases h

/-- Without a runtime to be had, a send returns an error and sends nothing. -/
theorem sendPidCommand_idle (serF32 : CFloat → Bytes) (h : m.poisoned = true ∨ m.runtime = none)
    (u : PidUpdate) (send : Except String Unit) :
    (∃ err, (sendPidCommand serF32 u send m).result = some (.error err)) ∧
      (sendPidCommand serF32 u send m).sent = [] := by
  unfold sendPidCommand
  split
  · rename_i err _
    exact ⟨⟨err, rfl⟩, rfl⟩
  · rename_i payload r hpayload hr
    have hlock := sendPidUpdate_lock hpayload
    unfold RuntimeMutex.lock at hlock
    rcases h with hp | hno
    · rw [if_pos hp] at hlock
      cases hlock
    · rw [hr] at hno
      cases hno
  · exact ⟨⟨_, rfl⟩, rfl⟩

/-- The receive thread leaves the endpoint alone. -/
theorem receiveThread_some {r : TelemetryRuntime} (lossy : Bytes → Bytes)
    (read : Bytes → Option JsonDict) (hr : m.runtime = some r) (data : Bytes) :
    ∃ last, (receiveThread lossy read data m).runtime = some { r with lastPacket := last } := by
  unfold receiveThread
  rw [hr]
  exact ⟨_, rfl⟩

theorem receiveThread_none (lossy : Bytes → Bytes) (read : Bytes → Option JsonDict)
    (hr : m.runtime = none) (data : Bytes) : (receiveThread lossy read data m).runtime = none := by
  unfold receiveThread
  rw [hr]
  rfl

/-! ## Sessions -/

/-- In every session, there is a runtime to be had exactly while a start counts, and then it is connected
to the endpoint that the status named and that the first start asked for. -/
structure SessionInv (s : ConsoleSession) : Prop where
  idle : s.latest = none → s.asked = none ∧ (s.mutex.poisoned = true ∨ s.mutex.runtime = none)
  live : ∀ config status, s.latest = some (config, status) →
    s.asked = some status.endpoint ∧ s.mutex.poisoned = false ∧
      ∃ r, s.mutex.runtime = some r ∧ r.config.endpoint = status.endpoint ∧
        r.socket.peer = status.endpoint

theorem SessionInv.of_runtime (h : SessionInv s) {r : TelemetryRuntime}
    (hp : s.mutex.poisoned = false) (hr : s.mutex.runtime = some r) :
    s.asked = some r.config.endpoint ∧ r.socket.peer = r.config.endpoint := by
  cases hl : s.latest with
  | none =>
    rcases (h.idle hl).2 with hp' | hr'
    · rw [hp] at hp'
      cases hp'
    · rw [hr] at hr'
      cases hr'
  | some entry =>
    obtain ⟨hasked, -, r', hr', hconfig, hpeer⟩ := h.live entry.1 entry.2 hl
    rw [hr] at hr'
    cases hr'
    rw [hasked, hconfig]
    exact ⟨rfl, hpeer⟩

theorem SessionInv.no_runtime (h : SessionInv s) (hr : s.mutex.runtime = none) :
    s.latest = none ∧ s.asked = none := by
  cases hl : s.latest with
  | none => exact ⟨rfl, (h.idle hl).1⟩
  | some entry =>
    obtain ⟨-, -, r, hr', -⟩ := h.live entry.1 entry.2 hl
    rw [hr] at hr'
    cases hr'

/-- The endpoint that a start names is the one that the first start asked for. -/
theorem SessionInv.endpoint_start (h : SessionInv s) {config : TelemetryConfig} {calls : StartCalls}
    {status : TelemetryStatus}
    (hok : (startTelemetry config calls s.mutex).result = some (.ok status)) :
    status.endpoint = s.asked.getD config.endpoint := by
  rcases startTelemetry_ok hok with ⟨r, hp, hr, hend⟩ | ⟨hr, hend⟩
  · rw [(h.of_runtime hp hr).1]
    exact hend
  · rw [(h.no_runtime hr).2]
    exact hend

theorem SessionInv.start (h : SessionInv s) (serF32 : CFloat → Bytes) (lossy : Bytes → Bytes)
    (read : Bytes → Option JsonDict) (config : TelemetryConfig) (calls : StartCalls) :
    SessionInv (sessionStep serF32 lossy read s (.start config calls)) := by
  unfold sessionStep
  rcases startTelemetry_cases config calls s.mutex with
    ⟨err, hres, hstate⟩ | ⟨r, hp, hr, hout⟩ | ⟨r, hp, hr, hconfig, hpeer, hstate, hres⟩ |
      ⟨hp, hr, hres, hstate⟩
  · simp only [hres, hstate]
    exact h
  · obtain ⟨hasked, hpeer⟩ := h.of_runtime hp hr
    simp only [hout, hasked]
    refine ⟨fun hno => absurd hno (Option.some_ne_none _), ?_⟩
    rintro config' status heq
    obtain ⟨rfl, rfl⟩ := Prod.mk.inj (Option.some.inj heq)
    exact ⟨rfl, hp, r, hr, rfl, hpeer⟩
  · obtain ⟨-, hasked⟩ := h.no_runtime hr
    simp only [hres, hstate, hasked]
    refine ⟨fun hno => absurd hno (Option.some_ne_none _), ?_⟩
    rintro config' status heq
    obtain ⟨rfl, rfl⟩ := Prod.mk.inj (Option.some.inj heq)
    subst hconfig
    exact ⟨rfl, hp, r, rfl, rfl, hpeer⟩
  · obtain ⟨hlatest, hasked⟩ := h.no_runtime hr
    simp only [hres, hstate]
    refine ⟨fun _ => ⟨hasked, Or.inl rfl⟩, fun config' status heq => ?_⟩
    rw [hlatest] at heq
    cases heq

theorem sessionInv_step (h : SessionInv s) (serF32 : CFloat → Bytes) (lossy : Bytes → Bytes)
    (read : Bytes → Option JsonDict) (c : Command) :
    SessionInv (sessionStep serF32 lossy read s c) := by
  cases c with
  | start config calls => exact h.start serF32 lossy read config calls
  | stop joins =>
    exact ⟨fun _ => ⟨rfl, stopTelemetry_idle joins s.mutex⟩, fun _ _ hno => by cases hno⟩
  | send u send =>
    show SessionInv { s with mutex := (sendPidCommand serF32 u send s.mutex).state }
    rw [sendPidCommand_state]
    exact h
  | receive data =>
    constructor
    · intro hl
      obtain ⟨hasked, hidle⟩ := h.idle hl
      exact ⟨hasked, hidle.imp_right fun hr => receiveThread_none lossy read hr data⟩
    · intro config status hl
      obtain ⟨hasked, hp, r, hr, hconfig, hpeer⟩ := h.live config status hl
      obtain ⟨last, hr'⟩ := receiveThread_some lossy read hr data
      exact ⟨hasked, hp, _, hr', hconfig, hpeer⟩

/-- The state after a sequence of commands. -/
abbrev session (serF32 : CFloat → Bytes) (lossy : Bytes → Bytes) (read : Bytes → Option JsonDict)
    (cs : List Command) : ConsoleSession :=
  runFrom (sessionStep serF32 lossy read) sessionStart cs

theorem sessionInv_session (serF32 : CFloat → Bytes) (lossy : Bytes → Bytes)
    (read : Bytes → Option JsonDict) (cs : List Command) :
    SessionInv (session serF32 lossy read cs) :=
  runFrom_invariant SessionInv ⟨fun _ => ⟨rfl, Or.inr rfl⟩, fun _ _ hno => by cases hno⟩
    (fun _ c h => sessionInv_step h serF32 lossy read c) cs

/-- While connected, `telemetry_status` names the endpoint too. -/
theorem telemetryStatus_session (serF32 : CFloat → Bytes) (lossy : Bytes → Bytes)
    (read : Bytes → Option JsonDict) (cs : List Command) {e : Endpoint}
    (h : (session serF32 lossy read cs).asked = some e) :
    (telemetryStatus (session serF32 lossy read cs).mutex).map TelemetryStatus.endpoint = .ok e := by
  have hinv := sessionInv_session serF32 lossy read cs
  cases hl : (session serF32 lossy read cs).latest with
  | none =>
    rw [(hinv.idle hl).1] at h
    cases h
  | some entry =>
    obtain ⟨hasked, hp, r, hr, hconfig, -⟩ := hinv.live entry.1 entry.2 hl
    rw [h] at hasked
    cases hasked
    unfold telemetryStatus
    rw [if_neg (ne_true_of_eq_false hp), hr]
    exact congrArg Except.ok hconfig

/-- In every sequence of commands, a send that returns `Ok` has sent its payload to the endpoint that the
most recent successful start named in its status, with no stop after it. That status names what the
first successful start since the last stop asked for. A start that fails changes nothing, and a send
without a start fails and sends nothing. -/
theorem pid_updates_follow_status (serF32 : CFloat → Bytes) (lossy : Bytes → Bytes)
    (read : Bytes → Option JsonDict) (cs : List Command) :
    let s := session serF32 lossy read cs
    (∀ u send, (sendPidCommand serF32 u send s.mutex).result = some (.ok ()) →
      ∃ config status payload, s.latest = some (config, status) ∧
        sendPidUpdate serF32 (some true) u = .ok payload ∧
        (sendPidCommand serF32 u send s.mutex).sent = [⟨status.endpoint, payload⟩]) ∧
    (∀ config calls status, (startTelemetry config calls s.mutex).result = some (.ok status) →
      status.endpoint = s.asked.getD config.endpoint) ∧
    (∀ config calls err, (startTelemetry config calls s.mutex).result = some (.error err) →
      (startTelemetry config calls s.mutex).state = s.mutex) ∧
    (s.latest = none → ∀ u send,
      (∃ err, (sendPidCommand serF32 u send s.mutex).result = some (.error err)) ∧
        (sendPidCommand serF32 u send s.mutex).sent = []) := by
  intro s
  have hinv : SessionInv s := sessionInv_session serF32 lossy read cs
  refine ⟨?_, ?_, ?_, fun hl u send => sendPidCommand_idle serF32 (hinv.idle hl).2 u send⟩
  · intro u send h
    obtain ⟨r, payload, hr, hpayload, hsent⟩ := sendPidCommand_ok h
    cases hl : s.latest with
    | none =>
      obtain ⟨⟨err, herr⟩, -⟩ := sendPidCommand_idle serF32 (hinv.idle hl).2 u send
      rw [h] at herr
      cases herr
    | some entry =>
      obtain ⟨config, status⟩ := entry
      obtain ⟨-, -, r', hr', -, hpeer⟩ := hinv.live config status hl
      rw [hr] at hr'
      cases hr'
      rw [hpeer] at hsent
      exact ⟨config, status, payload, rfl, hpayload, hsent⟩
  · intro config calls status h
    exact hinv.endpoint_start h
  · intro config calls err h
    exact startTelemetry_error h

def allSucceed : StartCalls := ⟨.ok (), .ok (), .ok (), .ok (), .ok (), true⟩

def droneConfig : TelemetryConfig := ⟨"192.168.4.1", 4444, 4444⟩
def otherConfig : TelemetryConfig := ⟨"192.168.4.2", 4444, 4444⟩

def levelUpdate : PidUpdate := ⟨ascii "pitch", ofRat 1, ofRat 0, ofRat 0⟩

def twoStarts : List Command := [.start droneConfig allSucceed, .start otherConfig allSucceed]

/-- Two starts return `Ok`; the gains go to the first endpoint, although the second start has asked for
another one. -/
theorem updates_keep_first_endpoint :
    ¬ ∀ (serF32 : CFloat → Bytes) (lossy : Bytes → Bytes) (read : Bytes → Option JsonDict)
        (cs : List Command) (u : PidUpdate) (send : Except String Unit)
        (config : TelemetryConfig) (status : TelemetryStatus),
      (session serF32 lossy read cs).latest = some (config, status) →
      (sendPidCommand serF32 u send (session serF32 lossy read cs).mutex).result = some (.ok ()) →
        ∀ d ∈ (sendPidCommand serF32 u send (session serF32 lossy read cs).mutex).sent,
          d.dest = config.endpoint := by
  intro h
  let s := session (fun _ => []) id (fun _ => none) twoStarts
  have hok : (sendPidCommand (fun _ => []) levelUpdate (.ok ()) s.mutex).result = some (.ok ()) := by
    decide +kernel
  obtain ⟨r, payload, hr, -, hsent⟩ := sendPidCommand_ok hok
  have hpeer : r.socket.peer = droneConfig.endpoint := by
    cases hr
    rfl
  have hdest := h _ _ _ twoStarts levelUpdate (.ok ()) otherConfig _ rfl hok ⟨r.socket.peer, payload⟩
  rw [hsent] at hdest
  have hwrong := hpeer.symm.trans (hdest (List.mem_singleton.2 rfl))
  exact absurd hwrong (by decide)

end EdnaDrone
