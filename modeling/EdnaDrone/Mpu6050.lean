import EdnaDrone.Imu
import Mathlib.Data.Fin.VecNotation

/-!
# `mpu6050.c`: from the registers to rates and angles

`mpu6050_read` converts the raw registers to physical units in the frame of the sensor, remaps the axes
for the mounting on the drone and computes two angles from the accelerometer. A vector in the frame of
the sensor lists its X, Y and Z.
-/

namespace EdnaDrone

open CNum

/-- The library functions of `mpu6050_read`. -/
class CMath (F : Type) where
  sqrtf : F → F
  /-- The angle of the second argument and the first one, in this order, as abscissa and ordinate. -/
  atan2f : F → F → F
  /-- The product with `180.0f / M_PI`, which is taken in `double` and stored as a `float`. -/
  toDegrees : F → F

/-- `mpu6050_data_t`. -/
structure Mpu6050Reading (F : Type) extends Mpu6050Data F where
  accelXG : F
  accelYG : F
  accelZG : F

/-- `(int16_t)((hi << 8) | lo)`. -/
def rawInt16 (hi lo : UInt8) : ℤ := (hi.toUInt16 <<< 8 ||| lo.toUInt16).toInt16.toInt

variable {F : Type} [Add F] [Mul F] [Neg F] [CMath F]

/-- The angle that `accel_angle_pitch` is in degrees. -/
def accelPitch (accelYG accelZG : F) : F := CMath.atan2f accelYG accelZG

/-- The angle that `accel_angle_roll` is in degrees. -/
def accelRoll (accelXG accelYG accelZG : F) : F :=
  CMath.atan2f (-accelXG) (CMath.sqrtf (accelYG * accelYG + accelZG * accelZG))

/-- The part of `mpu6050_read` behind the conversion to physical units. -/
def mpu6050Remap (accelSf gyroSf : Fin 3 → F) : Mpu6050Reading F :=
  let accelXG := -accelSf 2
  let accelYG := -accelSf 1
  let accelZG := -accelSf 0
  { accelXG := accelXG
    accelYG := accelYG
    accelZG := accelZG
    gyroXDps := -gyroSf 2
    gyroYDps := -gyroSf 1
    gyroZDps := -gyroSf 0
    accelAngleRoll := CMath.toDegrees (accelRoll accelXG accelYG accelZG)
    accelAnglePitch := CMath.toDegrees (accelPitch accelYG accelZG) }

variable [Div F] [CNum F]

def accelSensitivity : ℚ := 16384
def gyroSensitivity : ℚ := 131

def accelSf (raw : Vector UInt8 14) : Fin 3 → F :=
  ![ofInt (rawInt16 raw[0] raw[1]) / ofRat accelSensitivity,
    ofInt (rawInt16 raw[2] raw[3]) / ofRat accelSensitivity,
    ofInt (rawInt16 raw[4] raw[5]) / ofRat accelSensitivity]

/-- The bytes between are the temperature. -/
def gyroSf (raw : Vector UInt8 14) : Fin 3 → F :=
  ![ofInt (rawInt16 raw[8] raw[9]) / ofRat gyroSensitivity,
    ofInt (rawInt16 raw[10] raw[11]) / ofRat gyroSensitivity,
    ofInt (rawInt16 raw[12] raw[13]) / ofRat gyroSensitivity]

/-- `mpu6050_read`; `raw` is what the burst read returns, if it succeeds. -/
def mpu6050Read (raw : Option (Vector UInt8 14)) : Option (Mpu6050Reading F) :=
  raw.map fun raw => mpu6050Remap (accelSf raw) (gyroSf raw)

end EdnaDrone
