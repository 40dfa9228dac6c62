import EdnaDrone.Config
import EdnaDrone.Num

/-!
# `motor_mix.c`: the X-configuration mixer
-/

namespace EdnaDrone

open CNum

/-- `motor_outputs_t`. -/
structure MotorOutputs where
  fl : ℕ
  fr : ℕ
  rl : ℕ
  rr : ℕ
  deriving DecidableEq

variable {F : Type} [Add F] [Sub F] [LT F] [DecidableLT F] [CNum F]

def clampUs (val : F) : ℕ :=
  if val < ofInt escPwmMinUs then escPwmMinUs
  else if ofInt escPwmMaxUs < val then escPwmMaxUs
  else (toInt val).toNat

def motorMix (throttleUs : ℤ) (pidPitch pidRoll pidYaw : F) : MotorOutputs :=
  let t : F := ofInt throttleUs
  { fl := clampUs (t + pidPitch + pidRoll - pidYaw)
    fr := clampUs (t + pidPitch - pidRoll + pidYaw)
    rl := clampUs (t - pidPitch + pidRoll + pidYaw)
    rr := clampUs (t - pidPitch - pidRoll - pidYaw) }

end EdnaDrone
