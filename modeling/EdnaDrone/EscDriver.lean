import EdnaDrone.Esc
import EdnaDrone.Lib.Run

/-!
# The ESC driver as its callers see it

The operations of `esc.h` and `esc_calibration.h` as the events of one system, over LEDC calls that
succeed, and beside it the driver that writes every request to the LEDC without looking at `last_us`.
-/

namespace EdnaDrone

open Lib

/-- `esc_calibrate`; `r i` are the LEDC results of its `i`-th command. -/
def escCalibrate (r : ℕ → Motor → LedcResult) (e : EscState) : EscState :=
  let e := escSetAllUs (r 0) escPwmMaxUs e
  let e := escSetAllUs (r 1) escPwmMinUs e
  escSetAllUs (r 2) escPwmArmUs e

inductive EscOp where
  | arm
  | setUs (motor : ℤ) (pulseUs : ℕ)
  | setMotorsUs (m1 m2 m3 m4 : ℕ)
  | setAllUs (pulseUs : ℕ)
  | calibrate

def escStep (e : EscState) : EscOp → EscState
  | .arm => escArm (fun _ => .ok) e
  | .setUs motor pulseUs => escSetUs .ok motor pulseUs e
  | .setMotorsUs m1 m2 m3 m4 => escSetMotorsUs (fun _ => .ok) m1 m2 m3 m4 e
  | .setAllUs pulseUs => escSetAllUs (fun _ => .ok) pulseUs e
  | .calibrate => escCalibrate (fun _ _ => .ok) e

/-! ## The driver without the cache -/

/-- A call of `esc_set_us`: the motor index and the pulse width. -/
abbrev EscRequest : Type := ℤ × ℕ

def requestAll (pulseUs : ℕ) : List EscRequest :=
  [(0, pulseUs), (1, pulseUs), (2, pulseUs), (3, pulseUs)]

/-- The calls of `esc_set_us` that an operation makes, in their order. -/
def EscOp.requests : EscOp → List EscRequest
  | .arm => requestAll escPwmArmUs
  | .setUs motor pulseUs => [(motor, pulseUs)]
  | .setMotorsUs m1 m2 m3 m4 => [(0, m1), (1, m2), (2, m3), (3, m4)]
  | .setAllUs pulseUs => requestAll pulseUs
  | .calibrate => requestAll escPwmMaxUs ++ requestAll escPwmMinUs ++ requestAll escPwmArmUs

/-- `esc_set_us` if it wrote the LEDC on every call. -/
def escSetUsUncached (channel : Motor → LedcChannel) (x : EscRequest) : Motor → LedcChannel :=
  fun m =>
    if x.1 = (m : ℕ) then
      ledcUpdateDuty true (ledcSetDuty true (usToDuty (escClampUs x.2)) (channel m))
    else channel m

def escStepUncached (channel : Motor → LedcChannel) (op : EscOp) : Motor → LedcChannel :=
  runFrom escSetUsUncached channel op.requests

/-- The pulse that a sequence of requests asks for last, for one motor. -/
def lastRequest (m : Motor) (xs : List EscRequest) : Option ℕ := xs.reverse.lookup ((m : ℕ) : ℤ)

/-- The duty of a motor after a sequence of requests. -/
def requestedDuty (m : Motor) (xs : List EscRequest) : ℕ :=
  (lastRequest m xs).elim (usToDuty escPwmArmUs) fun pulseUs => usToDuty (escClampUs pulseUs)

/-! ## Calls whose LEDC writes may fail -/

/-- A call of `esc.h`, with the results of the LEDC calls it makes for each motor. -/
inductive EscCall where
  | setUs (r : LedcResult) (motor : ℤ) (pulseUs : ℕ)
  | setMotorsUs (r : Motor → LedcResult) (m1 m2 m3 m4 : ℕ)
  | setAllUs (r : Motor → LedcResult) (pulseUs : ℕ)

def escCallStep (e : EscState) : EscCall → EscState
  | .setUs r motor pulseUs => escSetUs r motor pulseUs e
  | .setMotorsUs r m1 m2 m3 m4 => escSetMotorsUs r m1 m2 m3 m4 e
  | .setAllUs r pulseUs => escSetAllUs r pulseUs e

/-- A call of `esc_set_us` and the results of its LEDC calls. -/
structure EscAttempt where
  motor : ℤ
  pulseUs : ℕ
  result : LedcResult

/-- The calls of `esc_set_us` that a call makes, in their order. -/
def EscCall.attempts : EscCall → List EscAttempt
  | .setUs r motor pulseUs => [⟨motor, pulseUs, r⟩]
  | .setMotorsUs r m1 m2 m3 m4 =>
    [⟨0, m1, r motorFl⟩, ⟨1, m2, r motorFr⟩, ⟨2, m3, r motorRl⟩, ⟨3, m4, r motorRr⟩]
  | .setAllUs r pulseUs => (List.finRange motorCount).map fun i : Motor => ⟨((i : ℕ) : ℤ), pulseUs, r i⟩

def escAttempt (e : EscState) (x : EscAttempt) : EscState := escSetUs x.result x.motor x.pulseUs e

end EdnaDrone
