import EdnaDrone.Config
import Mathlib.Logic.Function.Basic
import Mathlib.Tactic

/-!
# `esc.c`: the LEDC pulse-width driver

The state holds the static table `last_us`, the four LEDC channels, and as a history variable the
`esc_set_us` requests with a valid motor index, newest first, with the pulse width that was asked
for. The results of the LEDC calls are inputs: `esc_set_us` does not look at them.
-/

namespace EdnaDrone

abbrev motorCount : ℕ := 4

abbrev Motor : Type := Fin motorCount

def motorFl : Motor := 0
def motorFr : Motor := 1
def motorRl : Motor := 2
def motorRr : Motor := 3

def periodUs : ℕ := 20000
def maxDuty : ℕ := 65535

/-- `us_to_duty`. The product is taken in 64 bits, where it cannot overflow. -/
def usToDuty (pulseUs : ℕ) : ℕ :=
  let pulseUs := if pulseUs < escPwmMinUs then escPwmMinUs else pulseUs
  let pulseUs := if escPwmMaxUs < pulseUs then escPwmMaxUs else pulseUs
  pulseUs * maxDuty / periodUs

/-- An LEDC channel: the duty written by `ledc_set_duty`, and the one in effect since the last
`ledc_update_duty`. -/
structure LedcChannel where
  reg : ℕ
  duty : ℕ
  deriving DecidableEq

/-- Whether the two LEDC calls of one `esc_set_us` succeed. -/
structure LedcResult where
  setOk : Bool
  updateOk : Bool

def LedcResult.ok : LedcResult := ⟨true, true⟩

def ledcSetDuty (ok : Bool) (duty : ℕ) (c : LedcChannel) : LedcChannel :=
  if ok then { c with reg := duty } else c

def ledcUpdateDuty (ok : Bool) (c : LedcChannel) : LedcChannel :=
  if ok then { c with duty := c.reg } else c

structure EscState where
  /-- The static table `last_us` of `esc_set_us`. -/
  lastUs : Motor → ℕ
  channel : Motor → LedcChannel
  /-- History: the requests made so far, newest first. -/
  calls : List (Motor × ℕ)

def escClampUs (pulseUs : ℕ) : ℕ :=
  let pulseUs := if pulseUs < escPwmMinUs then escPwmMinUs else pulseUs
  if escPwmMaxUs < pulseUs then escPwmMaxUs else pulseUs

/-- `esc_init`: every channel starts at the arm duty; the cache keeps its initial `0`. -/
def escInit : EscState where
  lastUs _ := 0
  channel _ := ⟨usToDuty escPwmArmUs, usToDuty escPwmArmUs⟩
  calls := []

/-- `esc_set_us` past its index check. -/
def escWrite (r : LedcResult) (m : Motor) (pulseUs : ℕ) (e : EscState) : EscState :=
  let e := { e with calls := (m, pulseUs) :: e.calls }
  let pulseUs := escClampUs pulseUs
  if e.lastUs m = pulseUs then e
  else
    { e with
      lastUs := Function.update e.lastUs m pulseUs
      channel := Function.update e.channel m
        (ledcUpdateDuty r.updateOk (ledcSetDuty r.setOk (usToDuty pulseUs) (e.channel m))) }

def escSetUs (r : LedcResult) (motor : ℤ) (pulseUs : ℕ) (e : EscState) : EscState :=
  if h : 0 ≤ motor ∧ motor < motorCount then
    escWrite r ⟨motor.toNat, by omega⟩ pulseUs e
  else e

def escSetMotorsUs (r : Motor → LedcResult) (m1 m2 m3 m4 : ℕ) (e : EscState) : EscState :=
  let e := escSetUs (r motorFl) 0 m1 e
  let e := escSetUs (r motorFr) 1 m2 e
  let e := escSetUs (r motorRl) 2 m3 e
  escSetUs (r motorRr) 3 m4 e

/-- `esc_set_all_us`: the loop over the motor indices. -/
def escSetAllUs (r : Motor → LedcResult) (pulseUs : ℕ) (e : EscState) : EscState :=
  (List.finRange motorCount).foldl (fun e i => escSetUs (r i) (i : ℕ) pulseUs e) e

def escArm (r : Motor → LedcResult) (e : EscState) : EscState := escSetAllUs r escPwmArmUs e

/-- The pulse width last requested for a motor. -/
def EscState.lastCommanded (e : EscState) (m : Motor) : Option ℕ := e.calls.lookup m

end EdnaDrone
