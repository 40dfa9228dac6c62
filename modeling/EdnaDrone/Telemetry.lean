import EdnaDrone.Lib.Strtof
import EdnaDrone.Lib.Printf
import EdnaDrone.State

/-!
# `telemetry.c`: gain updates in, status packets out

A received datagram is a byte string. The decoder looks for four substrings in it, independently of
each other, and converts what follows three of them with `strtof`.
-/

namespace EdnaDrone

open Lib CNum

/-! ## Numbers in texts -/

/-- How a number type holds what `strtof` read. -/
class CText (F : Type) where
  ofText : NumText → F

instance {fmt : FloatFormat} : CText (Flt fmt) where
  ofText
    | .nan => .nan
    | .inf s => .inf s
    | .num s q => Flt.ofSign s q

/-- In exact arithmetic there is no NaN and no infinity; the texts of those are read as `0`. -/
instance {K : Type} [Field K] [LinearOrder K] [FloorRing K] : CText K where
  ofText
    | .num s q => (Flt.signed s q : K)
    | _ => 0

open CText

/-! ## `json_get_float` and `json_get_str` -/

/-- The search text of 31 bytes at most that `snprintf` builds from a key. -/
def searchText (key tail : Bytes) : Bytes := (snprintf 32 (34 :: key ++ tail)).1

section Decoder

variable {F : Type} [CText F]

def jsonGetFloat (json key : Bytes) (defaultVal : F) : F :=
  let search := searchText key [34, 58]
  match strstr json search with
  | none => defaultVal
  | some p =>
    let p := (p.drop search.length).dropWhile fun c => c == 32 || c == 9
    match strtof p with
    | none => defaultVal
    | some (v, _) => ofText v

/-- `json_get_str` into a buffer of `outlen` bytes; the result is the C string in it. -/
def jsonGetStr (json key : Bytes) (outlen : ℕ) : Bytes :=
  let search := searchText key [34, 58, 34]
  match strstr json search with
  | none => []
  | some p => ((p.drop search.length).takeWhile (· != 34)).take (outlen - 1)

end Decoder

/-! ## `telemetry_receive_pid_updates` -/

inductive Axis where
  | pitch
  | roll
  | yaw
  deriving DecidableEq

def Axis.text : Axis → Bytes
  | pitch => ascii "pitch"
  | roll => ascii "roll"
  | yaw => ascii "yaw"

structure Gains (F : Type) where
  kp : F
  ki : F
  kd : F
  deriving DecidableEq

/-- What the decoder extracts from a datagram. -/
structure PidPacket (F : Type) where
  axis : Bytes
  gains : Gains F

/-- The chain of `strcmp`s that selects the PID. -/
def selectAxis (axis : Bytes) : Option Axis :=
  if axis = Axis.text .pitch then some .pitch
  else if axis = Axis.text .roll then some .roll
  else if axis = Axis.text .yaw then some .yaw
  else none

section Pids

variable {F : Type}

def FlightController.pid (fc : FlightController F) : Axis → PidState F
  | .pitch => fc.pidPitch
  | .roll => fc.pidRoll
  | .yaw => fc.pidYaw

def PidState.gains (p : PidState F) : Gains F := ⟨p.kp, p.ki, p.kd⟩

/-- `pid_set_gains` on the PID of an axis. -/
def FlightController.setGains (fc : FlightController F) (a : Axis) (g : Gains F) :
    FlightController F :=
  match a with
  | .pitch => { fc with pidPitch := pidSetGains fc.pidPitch g.kp g.ki g.kd }
  | .roll => { fc with pidRoll := pidSetGains fc.pidRoll g.kp g.ki g.kd }
  | .yaw => { fc with pidYaw := pidSetGains fc.pidYaw g.kp g.ki g.kd }

end Pids

section Receive

variable {F : Type} [LT F] [DecidableLT F] [CNum F] [CText F]

def parsePacket (buf : Bytes) : PidPacket F where
  axis := jsonGetStr buf (ascii "axis") 16
  gains :=
    { kp := jsonGetFloat buf (ascii "kp") (ofRat (-1))
      ki := jsonGetFloat buf (ascii "ki") (ofRat (-1))
      kd := jsonGetFloat buf (ascii "kd") (ofRat (-1)) }

def Gains.malformed (g : Gains F) : Prop := g.kp < ofInt 0 ∨ g.ki < ofInt 0 ∨ g.kd < ofInt 0

instance (g : Gains F) : Decidable g.malformed := by unfold Gains.malformed; infer_instance

def applyPacket (p : PidPacket F) (fc : FlightController F) : FlightController F :=
  if p.gains.malformed then fc
  else
    match selectAxis p.axis with
    | some a => fc.setGains a p.gains
    | none => fc

/-- The receive buffer: at most 255 bytes of the datagram. -/
def recvBuf (data : Bytes) : Bytes := data.take 255

/-- `telemetry_receive_pid_updates`; `recv` is what `recvfrom` finds in the socket, if anything. -/
def telemetryReceivePidUpdates (recv : Option (SockAddr × Bytes)) (s : Firmware F) : Firmware F :=
  if s.wifi.sock < 0 then s
  else
    match recv with
    | none => s
    | some (src, data) =>
      if recvBuf data = [] then s
      else
        { s with
          telem :=
            if s.telem.clientSet then s.telem
            else { s.telem with client := src, clientSet := true }
          fc := applyPacket (parsePacket (cstr (recvBuf data))) s.fc }

end Receive

/-! ## `telemetry_send` -/

/-- The 23 values of one telemetry packet. -/
structure Report (F : Type) where
  pitch : F
  roll : F
  yawRate : F
  pitchSp : F
  rollSp : F
  yawSp : F
  pitchOut : F
  rollOut : F
  yawOut : F
  mFl : ℕ
  mFr : ℕ
  mRl : ℕ
  mRr : ℕ
  throttle : ℤ
  gains : Axis → Gains F

def Firmware.report {F : Type} (s : Firmware F) : Report F where
  pitch := s.globals.pitchDeg
  roll := s.globals.rollDeg
  yawRate := s.globals.yawRate
  pitchSp := s.globals.pitchSp
  rollSp := s.globals.rollSp
  yawSp := s.globals.yawSp
  pitchOut := s.telem.pitchOut
  rollOut := s.telem.rollOut
  yawOut := s.telem.yawOut
  mFl := s.telem.mFl
  mFr := s.telem.mFr
  mRl := s.telem.mRl
  mRr := s.telem.mRr
  throttle := s.globals.throttle
  gains a := (s.fc.pid a).gains

/-- The report `telemetry_send` gets to print, when the socket is open, a client is known and both
mutexes are taken. -/
def telemetryReport {F : Type} (takeImu takeSetpoint : Bool) (s : Firmware F) :
    Option (SockAddr × Report F) :=
  if s.wifi.sock < 0 ∨ s.telem.clientSet = false then none
  else if takeImu && takeSetpoint then some (s.telem.client, s.report)
  else none

/-- The nine gains of the message, in its order. -/
def gainsText {fmt : FloatFormat} (gains : Axis → Gains (Flt fmt)) : Bytes :=
  ascii "\"kp_pitch\":" ++ fmtFixed 4 (gains .pitch).kp ++
  ascii ",\"ki_pitch\":" ++ fmtFixed 4 (gains .pitch).ki ++
  ascii ",\"kd_pitch\":" ++ fmtFixed 4 (gains .pitch).kd ++
  ascii ",\"kp_roll\":" ++ fmtFixed 4 (gains .roll).kp ++
  ascii ",\"ki_roll\":" ++ fmtFixed 4 (gains .roll).ki ++
  ascii ",\"kd_roll\":" ++ fmtFixed 4 (gains .roll).kd ++
  ascii ",\"kp_yaw\":" ++ fmtFixed 4 (gains .yaw).kp ++
  ascii ",\"ki_yaw\":" ++ fmtFixed 4 (gains .yaw).ki ++
  ascii ",\"kd_yaw\":" ++ fmtFixed 4 (gains .yaw).kd

def Report.text {fmt : FloatFormat} (r : Report (Flt fmt)) : Bytes :=
  ascii "\x7b\"pitch\":" ++ fmtFixed 2 r.pitch ++ ascii ",\"roll\":" ++ fmtFixed 2 r.roll ++
  ascii ",\"yaw_rate\":" ++ fmtFixed 2 r.yawRate ++
  ascii ",\"pitch_sp\":" ++ fmtFixed 2 r.pitchSp ++ ascii ",\"roll_sp\":" ++ fmtFixed 2 r.rollSp ++
  ascii ",\"yaw_sp\":" ++ fmtFixed 2 r.yawSp ++
  ascii ",\"pitch_out\":" ++ fmtFixed 2 r.pitchOut ++
  ascii ",\"roll_out\":" ++ fmtFixed 2 r.rollOut ++
  ascii ",\"yaw_out\":" ++ fmtFixed 2 r.yawOut ++
  ascii ",\"m_fl\":" ++ fmtNat r.mFl ++ ascii ",\"m_fr\":" ++ fmtNat r.mFr ++
  ascii ",\"m_rl\":" ++ fmtNat r.mRl ++ ascii ",\"m_rr\":" ++ fmtNat r.mRr ++
  ascii ",\"throttle\":" ++ fmtInt r.throttle ++ ascii "," ++ gainsText r.gains ++
  ascii "\x7d\n"

/-- A call of `sendto`: the destination, the bytes in the buffer, and the length argument. -/
structure SendTo where
  dest : SockAddr
  buf : Bytes
  len : ℕ

/-- `telemetry_send`: the `sendto` call it makes, if any. -/
def telemetrySend {fmt : FloatFormat} (takeImu takeSetpoint : Bool) (s : Firmware (Flt fmt)) :
    Option SendTo :=
  (telemetryReport takeImu takeSetpoint s).map fun x =>
    let out := snprintf 512 x.2.text
    { dest := x.1, buf := out.1, len := out.2 }

end EdnaDrone
