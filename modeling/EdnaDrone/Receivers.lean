import EdnaDrone.Lib.JsonRead
import EdnaDrone.Telemetry

/-!
# Telemetry packets in the two consoles

The receive loops of `lib.rs` and `udp_client.py`. A text is the list of its bytes. The JSON reader of
a console and its conversion of bytes to text are parameters, and a decimal is read exactly.
-/

namespace EdnaDrone

open Lib

/-- The conversion of received bytes to text leaves ASCII as it is, whatever it does to other bytes. -/
def DecodesAscii (decode : Bytes → Bytes) : Prop := ∀ data, (∀ c ∈ data, c < 128) → decode data = data

/-! ## `lib.rs` -/

/-- A field of type `f32` keeps the decimal it was read from. -/
structure TelemetryPacket where
  pitch : ℚ
  roll : ℚ
  yawRate : ℚ
  pitchSp : ℚ
  rollSp : ℚ
  yawSp : ℚ
  pitchOut : ℚ
  rollOut : ℚ
  yawOut : ℚ
  mFl : ℕ
  mFr : ℕ
  mRl : ℕ
  mRr : ℕ
  throttle : ℤ
  kpPitch : ℚ
  kiPitch : ℚ
  kdPitch : ℚ
  kpRoll : ℚ
  kiRoll : ℚ
  kdRoll : ℚ
  kpYaw : ℚ
  kiYaw : ℚ
  kdYaw : ℚ
  deriving DecidableEq

def deserializeF32 : JsonDatum → Option ℚ := JsonDatum.value

def deserializeU32 : JsonDatum → Option ℕ
  | .num false mag true => if mag < 2 ^ 32 then some mag.num.toNat else none
  | _ => none

/-- The integer `-0` is read as a floating-point number, which is no `i32`. -/
def deserializeI32 : JsonDatum → Option ℤ
  | .num neg mag true =>
    let n := (Flt.signed neg mag).num
    if (neg = true → mag ≠ 0) ∧ -2 ^ 31 ≤ n ∧ n < 2 ^ 31 then some n else none
  | _ => none

/-- One field of the derived `Deserialize`: a field that is missing takes its default, if it has one,
and a field that comes twice is an error. -/
def deserializeField {α : Type} (deserialize : JsonDatum → Option α) (default : Option α)
    (name : Bytes) (ms : JsonDict) : Option α :=
  match ms.filter fun m => m.1 == name with
  | [] => default
  | [m] => deserialize m.2
  | _ => none

/-- `serde_json::from_str::<TelemetryPacket>`. Members of other names are skipped. -/
def TelemetryPacket.fromStr (read : Bytes → Option JsonDict) (line : Bytes) :
    Option TelemetryPacket := do
  let ms ← read line
  let f32 := deserializeField deserializeF32 (some 0)
  let u32 := deserializeField deserializeU32 (some 0)
  let pitch ← deserializeField deserializeF32 none (ascii "pitch") ms
  let roll ← deserializeField deserializeF32 none (ascii "roll") ms
  let yawRate ← f32 (ascii "yaw_rate") ms
  let pitchSp ← f32 (ascii "pitch_sp") ms
  let rollSp ← f32 (ascii "roll_sp") ms
  let yawSp ← f32 (ascii "yaw_sp") ms
  let pitchOut ← f32 (ascii "pitch_out") ms
  let rollOut ← f32 (ascii "roll_out") ms
  let yawOut ← f32 (ascii "yaw_out") ms
  let mFl ← u32 (ascii "m_fl") ms
  let mFr ← u32 (ascii "m_fr") ms
  let mRl ← u32 (ascii "m_rl") ms
  let mRr ← u32 (ascii "m_rr") ms
  let throttle ← deserializeField deserializeI32 (some 0) (ascii "throttle") ms
  let kpPitch ← f32 (ascii "kp_pitch") ms
  let kiPitch ← f32 (ascii "ki_pitch") ms
  let kdPitch ← f32 (ascii "kd_pitch") ms
  let kpRoll ← f32 (ascii "kp_roll") ms
  let kiRoll ← f32 (ascii "ki_roll") ms
  let kdRoll ← f32 (ascii "kd_roll") ms
  let kpYaw ← f32 (ascii "kp_yaw") ms
  let kiYaw ← f32 (ascii "ki_yaw") ms
  let kdYaw ← f32 (ascii "kd_yaw") ms
  return ⟨pitch, roll, yawRate, pitchSp, rollSp, yawSp, pitchOut, rollOut, yawOut, mFl, mFr, mRl, mRr,
    throttle, kpPitch, kiPitch, kdPitch, kpRoll, kiRoll, kdRoll, kpYaw, kiYaw, kdYaw⟩

/-- `str::lines`. A `\r` belongs to the line end only before a `\n`, so text after the last `\n` keeps
it. -/
def textLines (text : Bytes) : List Bytes :=
  let parts := text.splitOn 10
  let line (part : Bytes) := if part.getLast? = some 13 then part.dropLast else part
  parts.dropLast.map line ++ (parts.getLast?.filter (· ≠ [])).toList

/-- The body of the loop in `start_telemetry` on one datagram: what becomes of each line that is not
blank. -/
def receiveTelemetry (lossy : Bytes → Bytes) (read : Bytes → Option JsonDict) (data : Bytes) :
    List (Option TelemetryPacket) :=
  ((textLines (lossy (data.take 2048))).filter fun line => !line.all isSpace).map
    (TelemetryPacket.fromStr read)

/-! ## `udp_client.py` -/

/-- White space of `str.strip` in ASCII. -/
def isPySpace (c : Byte) : Bool := c == 32 || (9 ≤ c && c ≤ 13) || (28 ≤ c && c ≤ 31)

def strip (text : Bytes) : Bytes :=
  ((text.dropWhile isPySpace).reverse.dropWhile isPySpace).reverse

/-- The body of `_recv_loop` on one datagram: the dictionary that is stored, if any. -/
def recvLoop (decode : Bytes → Bytes) (loads : Bytes → Option JsonDict) (data : Bytes) :
    Option JsonDict := loads (strip (decode (data.take 1024)))

/-- A later member of a name replaces an earlier one. -/
def dictGet (d : JsonDict) (name : Bytes) : Option JsonDatum := d.reverse.lookup name

/-! ## What a packet says -/

/-- The bytes that `sendto` sends. -/
def SendTo.datagram (out : SendTo) : Bytes := out.buf.take out.len

/-- A value of a report with the conversion that prints it. -/
inductive ReportValue (F : Type) where
  /-- `%.pf` -/
  | fixed (p : ℕ) (x : F)
  /-- `%lu` -/
  | nat (n : ℕ)
  /-- `%d` -/
  | int (n : ℤ)

def jsonName (s : String) (h : ((ascii s).all fun c => decide (c ≠ 34 ∧ c ≠ 92 ∧ 32 ≤ c)) = true) :
    JsonString := ⟨ascii s, forall_mem_of_all h⟩

section Reports

variable {F : Type}

/-- The values of a report with their names, in the order of the message. -/
def Report.entries (r : Report F) : List (JsonString × ReportValue F) :=
  [(jsonName "pitch" rfl, .fixed 2 r.pitch), (jsonName "roll" rfl, .fixed 2 r.roll),
    (jsonName "yaw_rate" rfl, .fixed 2 r.yawRate), (jsonName "pitch_sp" rfl, .fixed 2 r.pitchSp),
    (jsonName "roll_sp" rfl, .fixed 2 r.rollSp), (jsonName "yaw_sp" rfl, .fixed 2 r.yawSp),
    (jsonName "pitch_out" rfl, .fixed 2 r.pitchOut), (jsonName "roll_out" rfl, .fixed 2 r.rollOut),
    (jsonName "yaw_out" rfl, .fixed 2 r.yawOut), (jsonName "m_fl" rfl, .nat r.mFl),
    (jsonName "m_fr" rfl, .nat r.mFr), (jsonName "m_rl" rfl, .nat r.mRl),
    (jsonName "m_rr" rfl, .nat r.mRr), (jsonName "throttle" rfl, .int r.throttle),
    (jsonName "kp_pitch" rfl, .fixed 4 (r.gains .pitch).kp),
    (jsonName "ki_pitch" rfl, .fixed 4 (r.gains .pitch).ki),
    (jsonName "kd_pitch" rfl, .fixed 4 (r.gains .pitch).kd),
    (jsonName "kp_roll" rfl, .fixed 4 (r.gains .roll).kp),
    (jsonName "ki_roll" rfl, .fixed 4 (r.gains .roll).ki),
    (jsonName "kd_roll" rfl, .fixed 4 (r.gains .roll).kd),
    (jsonName "kp_yaw" rfl, .fixed 4 (r.gains .yaw).kp),
    (jsonName "ki_yaw" rfl, .fixed 4 (r.gains .yaw).ki),
    (jsonName "kd_yaw" rfl, .fixed 4 (r.gains .yaw).kd)]

/-- The value rounded to its printed precision, for a number type whose values are read by `val`. -/
def ReportValue.rounded (val : F → ℚ) : ReportValue F → ℚ
  | .fixed p x => roundTo p (val x)
  | .nat n => n
  | .int n => n

/-- The packet that says what the report says, to the printed precision. -/
def Report.packet (val : F → ℚ) (r : Report F) : TelemetryPacket where
  pitch := roundTo 2 (val r.pitch)
  roll := roundTo 2 (val r.roll)
  yawRate := roundTo 2 (val r.yawRate)
  pitchSp := roundTo 2 (val r.pitchSp)
  rollSp := roundTo 2 (val r.rollSp)
  yawSp := roundTo 2 (val r.yawSp)
  pitchOut := roundTo 2 (val r.pitchOut)
  rollOut := roundTo 2 (val r.rollOut)
  yawOut := roundTo 2 (val r.yawOut)
  mFl := r.mFl
  mFr := r.mFr
  mRl := r.mRl
  mRr := r.mRr
  throttle := r.throttle
  kpPitch := roundTo 4 (val (r.gains .pitch).kp)
  kiPitch := roundTo 4 (val (r.gains .pitch).ki)
  kdPitch := roundTo 4 (val (r.gains .pitch).kd)
  kpRoll := roundTo 4 (val (r.gains .roll).kp)
  kiRoll := roundTo 4 (val (r.gains .roll).ki)
  kdRoll := roundTo 4 (val (r.gains .roll).kd)
  kpYaw := roundTo 4 (val (r.gains .yaw).kp)
  kiYaw := roundTo 4 (val (r.gains .yaw).ki)
  kdYaw := roundTo 4 (val (r.gains .yaw).kd)

/-- The integers of the report are in the range of their C types. -/
structure Report.IntsInRange (r : Report F) : Prop where
  motors : ∀ m ∈ [r.mFl, r.mFr, r.mRl, r.mRr], m < 2 ^ 32
  throttle : -2 ^ 31 ≤ r.throttle ∧ r.throttle < 2 ^ 31

/-! ## The message for any number type -/

/-- The text of a value, for a printer of `%.pf`. -/
def ReportValue.text (fixed : ℕ → F → Bytes) : ReportValue F → Bytes
  | .fixed p x => fixed p x
  | .nat n => fmtNat n
  | .int n => fmtInt n

/-- The message of `telemetry_send`, for a printer of `%.pf`. -/
def Report.message (fixed : ℕ → F → Bytes) (r : Report F) : Bytes :=
  123 :: ([44].intercalate (r.entries.map fun e => 34 :: (e.1.bytes ++ 34 :: 58 :: e.2.text fixed)) ++
    [125, 10])

/-- `telemetry_send`, for a printer of `%.pf`. -/
def telemetrySendWith (fixed : ℕ → F → Bytes) (takeImu takeSetpoint : Bool) (s : Firmware F) :
    Option SendTo :=
  (telemetryReport takeImu takeSetpoint s).map fun x =>
    let out := snprintf 512 (x.2.message fixed)
    { dest := x.1, buf := out.1, len := out.2 }

end Reports

/-- All values that the report prints with `%.pf` are finite. -/
structure Report.AllFinite {fmt : FloatFormat} (r : Report (Flt fmt)) : Prop where
  attitude : ∀ x ∈ [r.pitch, r.roll, r.yawRate], x.IsFinite
  setpoints : ∀ x ∈ [r.pitchSp, r.rollSp, r.yawSp], x.IsFinite
  outputs : ∀ x ∈ [r.pitchOut, r.rollOut, r.yawOut], x.IsFinite
  gains : ∀ a, ∀ x ∈ [(r.gains a).kp, (r.gains a).ki, (r.gains a).kd], x.IsFinite

end EdnaDrone
