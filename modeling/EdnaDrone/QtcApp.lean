import EdnaDrone.Console
import EdnaDrone.Lib.Decimal

/-!
# `MBL_QTC.py`: the sliders of the Python console

The nine slider variables are written by the user and by `_refresh_live`, which runs for every
telemetry packet, and read by `_send_gains`. All three run in the main loop of Tk, one after the
other. A `DoubleVar` holds a `float`.
-/

namespace EdnaDrone

open Lib CNum

/-! ## Python values -/

/-- A value that `json.loads` makes. -/
inductive PyValue where
  | float (x : CDouble)
  | int (n : ℤ)
  | bool (b : Bool)
  | str (s : Bytes)
  /-- `None`, a list or a dictionary. -/
  | other
  deriving DecidableEq

/-- A dictionary, by its lookups. -/
abbrev PyDict : Type := Bytes → Option PyValue

/-- `int(val)`, unless it raises; `intOfStr` is how `int` reads a string. -/
def PyValue.toInt (intOfStr : Bytes → Option ℤ) : PyValue → Option ℤ
  | float x => if x.IsFinite then some (CNum.toInt x) else none
  | int n => some n
  | bool b => some (if b then 1 else 0)
  | str s => intOfStr s
  | other => none

def pyRound : CDouble → CDouble
  | .fin s a => .ofSign s (roundTo 4 a)
  | x => x

/-- `round(val, 4)` as a `DoubleVar` holds it, unless it raises. -/
def PyValue.round : PyValue → Option CDouble
  | float x => some (pyRound x)
  | int n => some (ofInt n)
  | bool b => some (ofInt (if b then 1 else 0))
  | str _ => none
  | other => none

/-! ## `gain_vars` -/

deriving instance DecidableEq for GainKey

def GainKey.text : GainKey → Bytes
  | kp => ascii "kp"
  | ki => ascii "ki"
  | kd => ascii "kd"

def Gains.set {F : Type} (g : Gains F) (x : F) : GainKey → Gains F
  | .kp => { g with kp := x }
  | .ki => { g with ki := x }
  | .kd => { g with kd := x }

/-- `gain_vars[axis][g].set(x)`. -/
def PidSet.set {F : Type} (vars : PidSet F) (k : Axis × GainKey) (x : F) : PidSet F :=
  Function.update vars k.1 ((vars k.1).set x k.2)

def PidSet.get {F : Type} (vars : PidSet F) (k : Axis × GainKey) : F := (vars k.1).get k.2

/-- The sliders in the order of the loops over `AXES` and the gains. -/
def sliders : List (Axis × GainKey) := pidAxes.flatMap fun axis => pidGains.map fun g => (axis, g)

/-- `f"{g}_{axis}"`. -/
def sliderName (k : Axis × GainKey) : Bytes := k.2.text ++ 95 :: k.1.text

/-! ## `_refresh_live` -/

def motorNames : List Bytes := [ascii "m_fl", ascii "m_fr", ascii "m_rl", ascii "m_rr"]

/-- The loop over the sliders. Where `round` raises, it ends, and what it has set stays. -/
def refreshSliders (d : PyDict) : List (Axis × GainKey) → PidSet CDouble → PidSet CDouble
  | [], vars => vars
  | k :: ks, vars =>
    match d (sliderName k) with
    | none => refreshSliders d ks vars
    | some val =>
      match val.round with
      | none => vars
      | some x => refreshSliders d ks (vars.set k x)

/-- The motor bars come first: a value that `int` does not take ends the callback. -/
def refreshLive (intOfStr : Bytes → Option ℤ) (d : PyDict) (vars : PidSet CDouble) :
    PidSet CDouble :=
  if motorNames.all fun m => (((d m).getD (.int 1000)).toInt intOfStr).isSome then
    refreshSliders d sliders vars
  else vars

/-! ## The console -/

structure QtcState where
  connected : Bool
  gainVars : PidSet CDouble
  /-- The calls of `send_pid` so far. -/
  sent : List (Axis × Gains CDouble)

inductive QtcEvent where
  /-- The user moves a slider to `v`. -/
  | edit (k : Axis × GainKey) (v : CDouble)
  /-- `_refresh_live` on a received packet. -/
  | packet (d : PyDict)
  /-- The user presses Send Gains. -/
  | press

/-- The calls of `send_pid` in `_send_gains`. -/
def sendGains (s : QtcState) : List (Axis × Gains CDouble) :=
  if s.connected then pidAxes.map fun axis => (axis, s.gainVars axis) else []

def qtcStep (intOfStr : Bytes → Option ℤ) (s : QtcState) : QtcEvent → QtcState
  | .edit k v => { s with gainVars := s.gainVars.set k v }
  | .packet d => { s with gainVars := refreshLive intOfStr d s.gainVars }
  | .press => { s with sent := s.sent ++ sendGains s }

/-- The console after Connect; `DEFAULT_GAINS` are those of the other console. -/
def qtcStart : QtcState := ⟨true, defaultPid, []⟩

end EdnaDrone
