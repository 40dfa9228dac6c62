import EdnaDrone.Clients
import EdnaDrone.Lib.Run
import EdnaDrone.Receivers

/-!
# `lib.rs`: the telemetry runtime and its commands

The commands of the Tauri console share one `Mutex<Option<TelemetryRuntime>>`, and each of them holds
the lock until it returns. Every call of the operating system may fail, with an error text of its own.
`thread::spawn` does not return an error but panics, which poisons the lock for good.
-/

namespace EdnaDrone

open Lib CNum

/-! ## The state -/

structure Endpoint where
  host : String
  port : UInt16
  deriving DecidableEq

structure TelemetryConfig where
  host : String
  port : UInt16
  localPort : UInt16

def TelemetryConfig.endpoint (c : TelemetryConfig) : Endpoint := ⟨c.host, c.port⟩

/-- `"{host}:{port}"`, as `connect` takes it apart again. -/
def Endpoint.text (e : Endpoint) : String := e.host ++ ":" ++ toString e.port

structure TelemetryStatus where
  listening : Bool
  host : String
  port : UInt16
  localPort : UInt16
  lastPacket : Option TelemetryPacket

def TelemetryStatus.endpoint (s : TelemetryStatus) : Endpoint := ⟨s.host, s.port⟩

/-- A UDP socket after `connect`. -/
structure UdpSocket where
  peer : Endpoint

/-- The receive thread lives as long as the runtime: `stop_telemetry` takes the runtime out and joins
the thread. -/
structure TelemetryRuntime where
  config : TelemetryConfig
  socket : UdpSocket
  lastPacket : Option TelemetryPacket

/-- `Mutex<Option<TelemetryRuntime>>` between two commands. -/
structure RuntimeMutex where
  poisoned : Bool
  runtime : Option TelemetryRuntime

structure Datagram where
  dest : Endpoint
  payload : Bytes

/-- What a command leaves, returns and sends. A command that panics returns nothing. -/
structure Outcome (α : Type) where
  state : RuntimeMutex
  result : Option (Except String α)
  sent : List Datagram

def lockFailed : String := "Telemetry state lock failed"

def statusFromRuntime (r : TelemetryRuntime) (listening : Bool) : TelemetryStatus where
  listening := listening
  host := r.config.host
  port := r.config.port
  localPort := r.config.localPort
  lastPacket := r.lastPacket

/-! ## `start_telemetry` -/

/-- What the calls of `start_telemetry` return. -/
structure StartCalls where
  bind : Except String Unit
  setReadTimeout : Except String Unit
  connect : Except String Unit
  handshake : Except String Unit
  tryClone : Except String Unit
  /-- `thread::spawn` gets a thread. -/
  spawns : Bool

def hello : Bytes := ascii "\x7b\"hello\":\"telemetry-console\"\x7d\n"

/-- `start_telemetry` up to the clone of the socket: the socket or the error, and what was sent. -/
def openSocket (config : TelemetryConfig) (calls : StartCalls) :
    Except String UdpSocket × List Datagram :=
  match calls.bind with
  | .error err =>
    (.error ("Could not bind 0.0.0.0:" ++ toString config.localPort ++ ": " ++ err), [])
  | .ok _ =>
  match calls.setReadTimeout with
  | .error err => (.error ("Could not configure UDP timeout: " ++ err), [])
  | .ok _ =>
  let remote := config.endpoint
  match calls.connect with
  | .error err => (.error ("Could not connect UDP socket to " ++ remote.text ++ ": " ++ err), [])
  | .ok _ =>
  match calls.handshake with
  | .error err => (.error ("Could not send telemetry handshake: " ++ err), [])
  | .ok _ =>
  match calls.tryClone with
  | .error err => (.error ("Could not clone UDP socket: " ++ err), [⟨remote, hello⟩])
  | .ok _ => (.ok ⟨remote⟩, [⟨remote, hello⟩])

def startTelemetry (config : TelemetryConfig) (calls : StartCalls) (m : RuntimeMutex) :
    Outcome TelemetryStatus :=
  if m.poisoned then ⟨m, some (.error lockFailed), []⟩
  else
    match m.runtime with
    -- whatever the configuration asks for
    | some existing => ⟨m, some (.ok (statusFromRuntime existing true)), []⟩
    | none =>
      match openSocket config calls with
      | (.error err, sent) => ⟨m, some (.error err), sent⟩
      | (.ok socket, sent) =>
        if calls.spawns then
          let status : TelemetryStatus :=
            { listening := true, host := config.host, port := config.port
              localPort := config.localPort, lastPacket := none }
          ⟨{ m with runtime := some ⟨config, socket, none⟩ }, some (.ok status), sent⟩
        else ⟨{ m with poisoned := true }, none, sent⟩

/-! ## The other commands -/

/-- `stop_telemetry`; `joins` says whether the thread ended without a panic. -/
def stopTelemetry (joins : Bool) (m : RuntimeMutex) : Outcome Unit :=
  if m.poisoned then ⟨m, some (.error lockFailed), []⟩
  else
    match m.runtime with
    | some _ =>
      ⟨{ m with runtime := none },
        some (if joins then .ok () else .error "Telemetry receive thread panicked"), []⟩
    | none => ⟨m, some (.ok ()), []⟩

def telemetryStatus (m : RuntimeMutex) : Except String TelemetryStatus :=
  if m.poisoned then .error lockFailed
  else
    match m.runtime with
    | some current => .ok (statusFromRuntime current true)
    | none =>
      .ok
        { listening := false, host := "192.168.4.1", port := 4444, localPort := 4444
          lastPacket := none }

/-- What `send_pid_update` finds behind the lock. -/
def RuntimeMutex.lock (m : RuntimeMutex) : Option Bool :=
  if m.poisoned then none else some m.runtime.isSome

/-- `send_pid_update` with its socket; `send` is what the call of `send` returns. -/
def sendPidCommand (serF32 : CFloat → Bytes) (u : PidUpdate) (send : Except String Unit)
    (m : RuntimeMutex) : Outcome Unit :=
  match sendPidUpdate serF32 m.lock u, m.runtime with
  | .error err, _ => ⟨m, some (.error err), []⟩
  | .ok payload, some current =>
    match send with
    | .ok _ => ⟨m, some (.ok ()), [⟨current.socket.peer, payload⟩]⟩
    | .error err => ⟨m, some (.error ("Could not send PID update: " ++ err)), []⟩
  -- `sendPidUpdate` has a payload for a connected console only
  | .ok _, none => ⟨m, some (.error "Telemetry is not connected"), []⟩

/-- The receive thread on one datagram. -/
def receiveThread (lossy : Bytes → Bytes) (read : Bytes → Option JsonDict) (data : Bytes)
    (m : RuntimeMutex) : RuntimeMutex :=
  { m with
    runtime := m.runtime.map fun r =>
      { r with
        lastPacket := ((receiveTelemetry lossy read data).filterMap id).getLast?.or r.lastPacket } }

/-! ## Sequences of commands -/

inductive Command where
  | start (config : TelemetryConfig) (calls : StartCalls)
  | stop (joins : Bool)
  | send (u : PidUpdate) (send : Except String Unit)
  /-- The receive thread gets a datagram. -/
  | receive (data : Bytes)

structure ConsoleSession where
  mutex : RuntimeMutex
  /-- History: where the first `start_telemetry` that returned `Ok` since the last `stop_telemetry`
  asked to connect. -/
  asked : Option Endpoint
  /-- History: the most recent `start_telemetry` that returned `Ok`, with its status, unless
  `stop_telemetry` has come after it. -/
  latest : Option (TelemetryConfig × TelemetryStatus)

def sessionStep (serF32 : CFloat → Bytes) (lossy : Bytes → Bytes) (read : Bytes → Option JsonDict)
    (s : ConsoleSession) : Command → ConsoleSession
  | .start config calls =>
    let out := startTelemetry config calls s.mutex
    match out.result with
    | some (.ok status) =>
      { mutex := out.state, asked := some (s.asked.getD config.endpoint)
        latest := some (config, status) }
    | _ => { s with mutex := out.state }
  | .stop joins => { mutex := (stopTelemetry joins s.mutex).state, asked := none, latest := none }
  | .send u send => { s with mutex := (sendPidCommand serF32 u send s.mutex).state }
  | .receive data => { s with mutex := receiveThread lossy read data s.mutex }

def sessionStart : ConsoleSession := ⟨⟨false, none⟩, none, none⟩

end EdnaDrone
