import EdnaDrone.Config
import EdnaDrone.Num

/-!
# `pid.c`: the discrete PID controller
-/

namespace EdnaDrone

open CNum

/-- `pid_state_t`. -/
structure PidState (F : Type) where
  kp : F
  ki : F
  kd : F
  integral : F
  prevError : F
  outputLimit : F
  integralLimit : F
  deriving DecidableEq

variable {F : Type} [Add F] [Sub F] [Mul F] [Div F] [Neg F] [LT F] [DecidableLT F] [CNum F]

def pidInit (kp ki kd : F) : PidState F where
  kp := kp
  ki := ki
  kd := kd
  integral := ofRat 0
  prevError := ofRat 0
  outputLimit := ofRat pidOutputLimit
  integralLimit := ofRat pidIntegralLimit

/-- The two-sided clamp that `pid_update` applies to the integral and to the output. -/
def clampSym (x limit : F) : F :=
  if limit < x then limit else if x < -limit then -limit else x

def pidError (setpoint measurement : F) : F := setpoint - measurement

def pidDTerm (p : PidState F) (error dt : F) : F :=
  if ofRat 0 < dt then p.kd * ((error - p.prevError) / dt) else ofRat 0

def pidIntegral (p : PidState F) (error dt : F) : F :=
  clampSym (p.integral + error * dt) p.integralLimit

/-- The sum of the three terms of `pid_update` before the output is clamped. -/
def pidRaw (p : PidState F) (error dt : F) : F :=
  p.kp * error + p.ki * pidIntegral p error dt + pidDTerm p error dt

/-- `pid_update`: the state after one step, and the output. -/
def pidUpdate (p : PidState F) (setpoint measurement dt : F) : PidState F × F :=
  let error := pidError setpoint measurement
  ({ p with integral := pidIntegral p error dt, prevError := error },
    clampSym (pidRaw p error dt) p.outputLimit)

def pidReset (p : PidState F) : PidState F :=
  { p with integral := ofRat 0, prevError := ofRat 0 }

def pidSetGains (p : PidState F) (kp ki kd : F) : PidState F :=
  { p with kp := kp, ki := ki, kd := kd }

end EdnaDrone
