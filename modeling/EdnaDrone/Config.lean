import Mathlib.Data.Rat.Defs

/-!
# `config.h`: the constants the modelled code uses

Pulse widths are in microseconds and unsigned; the other integers are C `int`s. The constants with
an `f` suffix in the source are kept as rationals, and are converted to the number type where the
code uses them.
-/

namespace EdnaDrone

/-! ## ESC pulse widths -/

def escPwmMinUs : ℕ := 1000
def escPwmMaxUs : ℕ := 1600
def escPwmFlightMaxUs : ℕ := 1300
def escPwmArmUs : ℕ := 1000
def escPwmSpinUs : ℕ := 1200

/-! ## Accumulative throttle -/

def throttleAccelMaxUsPerCall : ℤ := 2
def throttleAccelMinUsPerCall : ℤ := 1

/-! ## IMU mounting offsets -/

def imuPitchOffsetDeg : ℚ := -30 / 100
def imuRollOffsetDeg : ℚ := 1207 / 100

/-! ## PID defaults and limits -/

def pidPitchKp : ℚ := 2
def pidPitchKi : ℚ := 1 / 10
def pidPitchKd : ℚ := 0
def pidRollKp : ℚ := 2
def pidRollKi : ℚ := 1 / 10
def pidRollKd : ℚ := 0
def pidYawKp : ℚ := 0
def pidYawKi : ℚ := 0
def pidYawKd : ℚ := 0
def pidOutputLimit : ℚ := 100
def pidIntegralLimit : ℚ := 0

/-! ## Safety cutoff and sticks -/

def angleLimitDeg : ℚ := 45
def stickMax : ℤ := 512
def stickDeadband : ℤ := 20
def angleSetpointMax : ℚ := 20
def yawRateMax : ℚ := 90

end EdnaDrone
