import EdnaDrone.Kalman

/-!
# `mpu6050.c` and `imu_task`: readings and their filtering

The accelerometer angles come from `atan2f` and `sqrtf`, and are taken as read here.
-/

namespace EdnaDrone

open CNum

/-- The gyro conversion of `mpu6050_read`, sign of the axis remapping included. -/
def gyroDps {F : Type} [Div F] [Neg F] [CNum F] (raw : ℤ) : F := -(ofInt raw / ofRat 131)

/-- The fields of `mpu6050_data_t` that `imu_task` reads. -/
structure Mpu6050Data (F : Type) where
  gyroXDps : F
  gyroYDps : F
  gyroZDps : F
  accelAnglePitch : F
  accelAngleRoll : F

/-- The local variables of `imu_task`. -/
structure ImuTask (F : Type) where
  kfPitch : KalmanState F
  kfRoll : KalmanState F
  lastUs : UInt32

/-- What `imu_task` publishes, before the mounting offsets. -/
structure Attitude (F : Type) where
  pitch : F
  roll : F
  yawRate : F

variable {F : Type} [Add F] [Sub F] [Mul F] [Div F] [LT F] [DecidableLT F] [LE F] [DecidableLE F]
  [CNum F]

def imuTaskStart (nowUs : UInt32) : ImuTask F := ⟨kalmanInit, kalmanInit, nowUs⟩

/-- One iteration of `imu_task`; `raw` is what `mpu6050_read` returns, if it succeeds. The pitch goes
through the filter named `kf_roll` and the roll through `kf_pitch`. -/
def imuTaskIteration (t : ImuTask F) (nowUs : UInt32) (raw : Option (Mpu6050Data F)) :
    ImuTask F × Option (Attitude F) :=
  let dt : F := guardedDt nowUs t.lastUs
  let t := { t with lastUs := nowUs }
  match raw with
  | none => (t, none)
  | some raw =>
    let pitch := kalmanUpdate t.kfRoll raw.accelAnglePitch raw.gyroXDps dt
    let roll := kalmanUpdate t.kfPitch raw.accelAngleRoll raw.gyroYDps dt
    ({ t with kfRoll := pitch.1, kfPitch := roll.1 },
      some { pitch := pitch.2, roll := roll.2, yawRate := raw.gyroZDps })

end EdnaDrone
