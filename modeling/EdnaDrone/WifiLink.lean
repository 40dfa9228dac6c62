import EdnaDrone.Firmware

/-!
# `wifi_server.c`: stations and the telemetry client

The firmware together with the access point's station events. The address that telemetry goes to is
kept in `telemetry.c`; `wifi_server.c` has an address and a flag of its own.
-/

namespace EdnaDrone

open Lib

inductive LinkEvent (F : Type) where
  | firmware (e : Event F)
  /-- `WIFI_EVENT_AP_STACONNECTED`. -/
  | staConnected
  /-- `WIFI_EVENT_AP_STADISCONNECTED`. -/
  | staDisconnected

def wifiServerGetClientAddr (w : WifiServer) : Option SockAddr :=
  if w.clientKnown then some w.clientAddr else none

section Step

variable {F : Type} [Add F] [Sub F] [Mul F] [Div F] [Neg F] [LT F] [DecidableLT F] [LE F]
  [DecidableLE F] [CNum F] [CText F]

/-- `wifi_event_handler` beside the steps of the tasks. -/
def linkStep (s : Firmware F) : LinkEvent F → Firmware F
  | .firmware e => step s e
  -- only logged
  | .staConnected => s
  | .staDisconnected => { s with wifi := { s.wifi with clientKnown := false } }

abbrev linkRun (sock : ℤ) (es : List (LinkEvent F)) : Firmware F := runFrom linkStep (boot sock) es

end Step

/-! ## Whom the telemetry is for -/

section Clients

variable {F : Type}

def newestStep (c : Option SockAddr) : LinkEvent F → Option SockAddr
  | .firmware (.recv src _) => some src
  | .staDisconnected => none
  | _ => c

/-- The sender of the most recent datagram since the last disconnect. -/
def newestClient (es : List (LinkEvent F)) : Option SockAddr := runFrom newestStep none es

def firstStep (c : Option SockAddr) : LinkEvent F → Option SockAddr
  | .firmware (.recv src data) => if recvBuf data = [] then c else some (c.getD src)
  | _ => c

/-- The sender of the first datagram that was not empty. -/
def firstSender (es : List (LinkEvent F)) : Option SockAddr := runFrom firstStep none es

def LinkEvent.IsDatagram : LinkEvent F → Prop
  | .firmware (.recv _ _) => True
  | _ => False

end Clients

/-- With both mutexes telemetry goes to `c` and to nobody else, and without them nowhere. -/
def SendsTo (s : Firmware CFloat) (c : Option SockAddr) : Prop :=
  ∀ takeImu takeSetpoint, (telemetrySend takeImu takeSetpoint s).map SendTo.dest =
    if takeImu && takeSetpoint then c else none

/-- Both modules agree that `c` is the client. -/
structure FollowsClient (s : Firmware CFloat) (c : Option SockAddr) : Prop where
  clientAddr : wifiServerGetClientAddr s.wifi = c
  sends : SendsTo s c

end EdnaDrone
