import EdnaDrone.Lib.CMemory
import EdnaDrone.Telemetry

/-!
# `telemetry.c`: the decoder on its buffers

The functions of the decoder with the pointers they move and the buffers they access: `buf` is
readable up to the NUL that ends the datagram, and `axis` has the 16 bytes it is declared with. An
access beyond is a fault, and a function that faults returns `none`.
-/

namespace EdnaDrone

open Lib CNum CText

section Decoder

variable {F : Type} [CText F]

/-- `json_get_float`. -/
def jsonGetFloatAt (json key : Bytes) (defaultVal : F) : Option F := do
  let search := searchText key [34, 58]
  match ← strstrAt json 0 search with
  | none => return defaultVal
  | some p =>
    let p ← skipWhileAt (fun c => c == 32 || c == 9) json (p + search.length)
    let (val, fin) ← strtofAt json p
    if fin = p then return defaultVal
    else return ofText val

/-- The loop of `json_get_str` from `p` and `i` on, and the NUL it ends with. -/
def jsonGetStrLoop (json : Bytes) (outlen : ℕ) (out : Bytes) (p i : ℕ) : Option Bytes :=
  match _h : json[p]? with
  | none => none
  | some c =>
    if c ≠ 0 ∧ c ≠ 34 ∧ i < outlen - 1 then
      match putAt out i c with
      | none => none
      | some out => jsonGetStrLoop json outlen out (p + 1) (i + 1)
    else putAt out i 0
termination_by json.length - p
decreasing_by
  have := (List.getElem?_eq_some_iff.1 _h).1
  omega

/-- `json_get_str`: what is in `out` after the call. -/
def jsonGetStrAt (json key out : Bytes) (outlen : ℕ) : Option Bytes := do
  let search := searchText key [34, 58, 34]
  match ← strstrAt json 0 search with
  | none => putAt out 0 0
  | some p => jsonGetStrLoop json outlen out (p + search.length) 0

end Decoder

section Receive

variable {F : Type} [CNum F] [CText F]

/-- The four extractions from a buffer; `axis` is what the array holds before them. -/
def extractPacket (buf axis : Bytes) : Option (PidPacket F) := do
  let axis ← jsonGetStrAt buf (ascii "axis") axis 16
  let kp ← jsonGetFloatAt buf (ascii "kp") (ofRat (-1))
  let ki ← jsonGetFloatAt buf (ascii "ki") (ofRat (-1))
  let kd ← jsonGetFloatAt buf (ascii "kd") (ofRat (-1))
  return ⟨cstr axis, ⟨kp, ki, kd⟩⟩

/-- `telemetry_receive_pid_updates`. -/
def telemetryReceivePidUpdatesAt [LT F] [DecidableLT F] (axis : Bytes)
    (recv : Option (SockAddr × Bytes)) (s : Firmware F) : Option (Firmware F) :=
  if s.wifi.sock < 0 then some s
  else
    match recv with
    | none => some s
    | some (src, data) =>
      if recvBuf data = [] then some s
      else
        (extractPacket (recvBuf data ++ [0]) axis).map fun p =>
          { s with
            telem :=
              if s.telem.clientSet then s.telem
              else { s.telem with client := src, clientSet := true }
            fc := applyPacket p s.fc }

end Receive

end EdnaDrone
