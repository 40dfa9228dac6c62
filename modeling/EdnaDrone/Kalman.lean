import EdnaDrone.Lib.Run
import EdnaDrone.Num

/-!
# `kalman.c`: angle and gyro bias estimation

The four covariance entries are stored separately and updated in place, so each assignment of the
source is one record update here, in the order of the source.
-/

namespace EdnaDrone

open CNum

/-- `kalman_state_t`. -/
structure KalmanState (F : Type) where
  angle : F
  bias : F
  p00 : F
  p01 : F
  p10 : F
  p11 : F
  qAngle : F
  qBias : F
  rMeasure : F
  deriving DecidableEq

variable {F : Type} [Add F] [Sub F] [Mul F] [Div F] [CNum F]

def kalmanInit : KalmanState F where
  angle := ofRat 0
  bias := ofRat 0
  p00 := ofRat 0
  p01 := ofRat 0
  p10 := ofRat 0
  p11 := ofRat 0
  qAngle := ofRat (1 / 1000)
  qBias := ofRat (3 / 1000)
  rMeasure := ofRat (3 / 100)

/-- The predict phase of `kalman_update`. -/
def kalmanPredict (k : KalmanState F) (gyroRate dt : F) : KalmanState F :=
  let k := { k with angle := k.angle + dt * (gyroRate - k.bias) }
  let k := { k with p00 := k.p00 + dt * (dt * k.p11 - k.p01 - k.p10 + k.qAngle) }
  let k := { k with p01 := k.p01 - dt * k.p11 }
  let k := { k with p10 := k.p10 - dt * k.p11 }
  { k with p11 := k.p11 + k.qBias * dt }

/-- The innovation covariance `S`. -/
def KalmanState.innovationCov (k : KalmanState F) : F := k.p00 + k.rMeasure

def KalmanState.gain0 (k : KalmanState F) : F := k.p00 / k.innovationCov

def KalmanState.gain1 (k : KalmanState F) : F := k.p10 / k.innovationCov

/-- The update phase of `kalman_update`. -/
def kalmanCorrect (k : KalmanState F) (accelAngle : F) : KalmanState F :=
  let innovation := accelAngle - k.angle
  let k0 := k.gain0
  let k1 := k.gain1
  let k := { k with angle := k.angle + k0 * innovation }
  let k := { k with bias := k.bias + k1 * innovation }
  let p00Tmp := k.p00
  let p01Tmp := k.p01
  let k := { k with p00 := k.p00 - k0 * p00Tmp }
  let k := { k with p01 := k.p01 - k0 * p01Tmp }
  let k := { k with p10 := k.p10 - k1 * p00Tmp }
  { k with p11 := k.p11 - k1 * p01Tmp }

/-- `kalman_update`: the state after the call, and the angle it returns. -/
def kalmanUpdate (k : KalmanState F) (accelAngle gyroRate dt : F) : KalmanState F × F :=
  let k := kalmanCorrect (kalmanPredict k gyroRate dt) accelAngle
  (k, k.angle)

structure KalmanSample (F : Type) where
  accelAngle : F
  gyroRate : F
  dt : F

def kalmanStep (k : KalmanState F) (x : KalmanSample F) : KalmanState F :=
  (kalmanUpdate k x.accelAngle x.gyroRate x.dt).1

/-- The state after a sequence of calls from `kalman_init`. -/
abbrev kalmanRun (xs : List (KalmanSample F)) : KalmanState F :=
  Lib.runFrom kalmanStep kalmanInit xs

end EdnaDrone
