import EdnaDrone.Clients
import EdnaDrone.Lib.Run
import EdnaDrone.Receivers

/-!
# `udp_client.py`: the socket and its receive loops

`UDPClient` makes one socket, in its constructor. Each call of `start` adds a thread with a receive
loop; a thread is known by where it stands in its loop. `MBL_QTC.py` starts and stops the client with
one button, in the main loop of Tk. The threads run beside it, so any of their steps may come between
two presses; what a thread does in the middle of a press it may as well do before or after it.
-/

namespace EdnaDrone

open Lib

/-- Where a receive loop stands. -/
inductive RecvLoop where
  /-- Before the test of `self._running`. -/
  | atTest
  /-- In the body of the loop. -/
  | inBody
  deriving DecidableEq

structure UdpClient where
  /-- `self.sock` is not closed. -/
  sockOpen : Bool
  running : Bool
  latest : Option JsonDict
  /-- History: what `sendto` has been given and has not refused. -/
  sent : List Bytes

/-- `_send_raw`: a closed socket raises an `OSError`, which is printed. -/
def UdpClient.sendRaw (c : UdpClient) (data : Bytes) : UdpClient :=
  if c.sockOpen then { c with sent := c.sent ++ [data] } else c

/-- `stop`. -/
def UdpClient.stop (c : UdpClient) : UdpClient := { c with running := false, sockOpen := false }

/-- `QTCApp` with its client and the threads that are alive. -/
structure ClientSystem where
  connected : Bool
  client : UdpClient
  loops : List RecvLoop

inductive ClientEvent where
  /-- `_toggle_connect`; `spawns` says whether `Thread.start` gets a thread, if it comes to that. -/
  | press (spawns : Bool)
  /-- The `i`-th receive loop tests `self._running`. -/
  | test (i : ℕ)
  /-- The `i`-th receive loop runs its body; no data is a timeout or an error. -/
  | body (i : ℕ) (data : Option Bytes)

def ClientEvent.isPress : ClientEvent → Bool
  | .press _ => true
  | _ => false

/-- `start`. An exception of `Thread.start` leaves `_running` set. -/
def clientStart (spawns : Bool) (s : ClientSystem) : ClientSystem :=
  let client := { s.client.sendRaw (ascii "\x7b\"hello\":1\x7d\n") with running := true }
  if spawns then { s with client := client, loops := s.loops ++ [.atTest] }
  else { s with client := client }

/-- `_toggle_connect`: an exception of `start` is shown, and the button stays as it is. -/
def toggleConnect (spawns : Bool) (s : ClientSystem) : ClientSystem :=
  if s.connected then { s with client := s.client.stop, connected := false }
  else
    let s := clientStart spawns s
    if spawns then { s with connected := true } else s

/-- The condition of `while self._running`: the thread ends, or goes on. -/
def recvLoopTest (i : ℕ) (s : ClientSystem) : ClientSystem :=
  match s.loops[i]? with
  | some .atTest =>
    { s with loops := if s.client.running then s.loops.set i .inBody else s.loops.eraseIdx i }
  | _ => s

/-- The body of `_recv_loop`: whatever it raises, the loop goes back to its test. A closed socket
receives nothing. -/
def recvLoopBody (decode : Bytes → Bytes) (loads : Bytes → Option JsonDict) (i : ℕ)
    (data : Option Bytes) (s : ClientSystem) : ClientSystem :=
  match s.loops[i]? with
  | some .inBody =>
    let data := if s.client.sockOpen then data else none
    { s with
      client := { s.client with latest := (data.bind (recvLoop decode loads)).or s.client.latest }
      loops := s.loops.set i .atTest }
  | _ => s

def clientStep (decode : Bytes → Bytes) (loads : Bytes → Option JsonDict) (s : ClientSystem) :
    ClientEvent → ClientSystem
  | .press spawns => toggleConnect spawns s
  | .test i => recvLoopTest i s
  | .body i data => recvLoopBody decode loads i data s

/-- The application before the first press. -/
def clientSystem : ClientSystem where
  connected := false
  client := { sockOpen := true, running := false, latest := none, sent := [] }
  loops := []

end EdnaDrone
