import EdnaDrone.Clients
import EdnaDrone.Lib.Run

/-!
# `App.jsx`: sending gains and waiting for their confirmation

The console sends the nine gains in three datagrams and then compares every telemetry packet with
what it sent. Console, network and drone are one transition system. A datagram or packet stays in the
network once it is sent, so it can be delivered at any time, in any order, more than once or never.
What JavaScript reads of a decimal in a packet that went through the `f32` of `lib.rs` is a parameter,
`relay`.
-/

namespace EdnaDrone

open Lib CNum

/-! ## `pidDraftsMatch` -/

/-- The nine gains that the console edits, sends and reads. -/
abbrev PidSet (F : Type) : Type := Axis → Gains F

/-- The keys of the gains of one axis. -/
inductive GainKey where
  | kp
  | ki
  | kd

def Gains.get {F : Type} (g : Gains F) : GainKey → F
  | .kp => g.kp
  | .ki => g.ki
  | .kd => g.kd

def Gains.map {F G : Type} (f : F → G) (g : Gains F) : Gains G := ⟨f g.kp, f g.ki, f g.kd⟩

def pidAxes : List Axis := [.pitch, .roll, .yaw]
def pidGains : List GainKey := [.kp, .ki, .kd]

def pidConfirmTolerance : CDouble := ofRat (1 / 10000)

/-- The comparison of one reported gain with the one sent. -/
def gainMatches (actual expected : CDouble) : Bool :=
  if actual.IsFinite ∧ expected.IsFinite then
    decide (fabs (actual - expected) ≤ pidConfirmTolerance)
  else feq actual expected

def pidDraftsMatch (left right : PidSet CDouble) : Bool :=
  pidAxes.all fun axis => pidGains.all fun gain =>
    gainMatches ((left axis).get gain) ((right axis).get gain)

/-! ## The system -/

def defaultPid : PidSet CDouble
  | .pitch => ⟨ofRat (12 / 10), ofRat (1 / 100), ofRat (8 / 100)⟩
  | .roll => ⟨ofRat (12 / 10), ofRat (1 / 100), ofRat (8 / 100)⟩
  | .yaw => ⟨ofRat 2, ofRat (5 / 100), ofRat 0⟩

/-- A telemetry packet: the gains it reports, and the gains stored in the drone when it was sent. -/
structure GainPacket where
  reported : PidSet CDouble
  producedBy : PidSet CFloat

/-- The state of `App` and of `useTelemetry` that the confirmation reads or writes. -/
structure ConsoleState where
  latest : Option GainPacket
  pending : Option (PidSet CDouble)
  /-- The values of the last render, when its effects have not run yet. -/
  rendered : Option (Option (PidSet CDouble) × Option GainPacket)
  timer : Bool
  /-- The calls of `handleSendPid` that wait for `telemetry.sendPid`, with its result. -/
  sending : List (PidSet CDouble × Bool)
  lastConfirmed : PidSet CDouble
  initialized : Bool
  /-- History: the gain sets reported as confirmed, each with the packet that triggered it. -/
  confirmations : List (PidSet CDouble × GainPacket)

structure ConsoleSystem where
  console : ConsoleState
  drone : FlightController CFloat
  updates : List (Axis × Gains CFloat)
  /-- The telemetry packets sent so far. -/
  packets : List GainPacket

inductive ConsoleEvent where
  /-- Send All; `ok` says which of the three invocations find the console connected. -/
  | sendAll (drafts : PidSet CDouble) (ok : Axis → Bool)
  /-- The `i`-th waiting `handleSendPid` goes on. -/
  | resume (i : ℕ)
  | timeout
  | render
  | effects
  | deliver (i : ℕ)
  | report
  /-- The console receives the `i`-th telemetry packet. -/
  | arrive (i : ℕ)

def FlightController.gains {F : Type} (fc : FlightController F) : PidSet F :=
  fun a => (fc.pid a).gains

/-- All three gains are finite. JSON has no other numbers. -/
def Gains.AllFinite {fmt : FloatFormat} (g : Gains (Flt fmt)) : Prop :=
  g.kp.IsFinite ∧ g.ki.IsFinite ∧ g.kd.IsFinite

instance {fmt : FloatFormat} (g : Gains (Flt fmt)) : Decidable g.AllFinite := by
  unfold Gains.AllFinite
  infer_instance

/-- The gains of `send_pid_update` for the gains of the console, and what the drone reads of the
datagram: `serde_json` converts to an `f32` and prints it so that it reads back. -/
def Gains.stored (g : Gains CDouble) : Gains CFloat := g.map toFloat

/-- The decimal that `%.4f` prints for a finite number. -/
def printedGain (x : CFloat) : ℚ := roundHalfEven (x.val * 10 ^ 4) / 10 ^ 4

/-- `send_pid_update`: the invocation is rejected for a number that JSON prints as `null` and for a
negative gain. -/
def acceptsUpdate (ok : Bool) (g : Gains CDouble) : Bool :=
  ok && decide g.AllFinite &&
    !(decide (g.stored.kp < ofRat 0) || decide (g.stored.ki < ofRat 0) ||
      decide (g.stored.kd < ofRat 0))

/-- `telemetry.sendPid`: the three invocations run whatever the others do; one rejected makes the
result `false`. -/
def consoleSendAll (drafts : PidSet CDouble) (ok : Axis → Bool) (s : ConsoleSystem) :
    ConsoleSystem :=
  let accepted := pidAxes.filter fun a => acceptsUpdate (ok a) (drafts a)
  { s with
    updates := s.updates ++ accepted.map fun a => (a, (drafts a).stored)
    console :=
      { s.console with
        sending := s.console.sending ++
          [(drafts, pidAxes.all fun a => acceptsUpdate (ok a) (drafts a))] } }

/-- `handleSendPid` after its `await`. -/
def ConsoleState.resume (i : ℕ) (c : ConsoleState) : ConsoleState :=
  match c.sending[i]? with
  | some (sentPid, sent) =>
    let c := { c with sending := c.sending.eraseIdx i }
    if sent then { c with pending := some sentPid, timer := true } else c
  | none => c

/-- The callback of the confirmation timer. -/
def ConsoleState.timeout (c : ConsoleState) : ConsoleState :=
  if c.timer then { c with pending := none, timer := false } else c

/-- The effect that takes the first packet for the confirmed gains. -/
def ConsoleState.initEffect (latest : Option GainPacket) (c : ConsoleState) : ConsoleState :=
  match latest with
  | some p =>
    if c.initialized then c
    else { c with lastConfirmed := p.reported, initialized := true }
  | none => c

/-- The effect that confirms the pending gains. -/
def ConsoleState.confirmEffect (pending : Option (PidSet CDouble)) (latest : Option GainPacket)
    (c : ConsoleState) : ConsoleState :=
  match pending, latest with
  | some sent, some p =>
    if pidDraftsMatch p.reported sent then
      { c with
        timer := false
        lastConfirmed := sent
        pending := none
        confirmations := (sent, p) :: c.confirmations }
    else c
  | _, _ => c

/-- The effects of the last render, on the values it rendered. -/
def ConsoleState.effects (c : ConsoleState) : ConsoleState :=
  match c.rendered with
  | some (pending, latest) =>
    ({ c with rendered := none }.initEffect latest).confirmEffect pending latest
  | none => c

/-- The packet that `telemetry_send` makes of the stored gains, as the console reads it. -/
def gainPacket (relay : ℚ → CDouble) (gains : PidSet CFloat) : GainPacket :=
  ⟨fun a => (gains a).map fun x => relay (printedGain x), gains⟩

def consoleStep (relay : ℚ → CDouble) (s : ConsoleSystem) : ConsoleEvent → ConsoleSystem
  | .sendAll drafts ok => consoleSendAll drafts ok s
  | .resume i => { s with console := s.console.resume i }
  | .timeout => { s with console := s.console.timeout }
  | .render =>
    { s with console := { s.console with rendered := some (s.console.pending, s.console.latest) } }
  | .effects => { s with console := s.console.effects }
  | .deliver i =>
    match s.updates[i]? with
    -- a gain beyond the range of `float` was printed as `null`, which the drone does not read
    | some (a, g) => if g.AllFinite then { s with drone := applyPacket ⟨a.text, g⟩ s.drone } else s
    | none => s
  | .report =>
    -- `serde_json` rejects a packet with a `nan` or an `inf`
    if pidAxes.all fun a => decide (s.drone.gains a).AllFinite then
      { s with packets := s.packets ++ [gainPacket relay s.drone.gains] }
    else s
  | .arrive i =>
    match s.packets[i]? with
    | some p => { s with console := { s.console with latest := some p } }
    | none => s

def consoleStart (drone : FlightController CFloat) : ConsoleSystem where
  console :=
    { latest := none, pending := none, rendered := none, timer := false, sending := []
      lastConfirmed := defaultPid, initialized := false, confirmations := [] }
  drone := drone
  updates := []
  packets := []

end EdnaDrone
