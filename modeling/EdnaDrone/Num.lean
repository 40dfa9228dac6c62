import EdnaDrone.Lib.Flt
import Mathlib.Algebra.Order.Floor.Ring
import Mathlib.Algebra.Order.Field.Basic

/-!
# The number types the firmware is modelled over

The code computes with C's `float`. Every function of the model that does arithmetic is generic in
the number type `F`, so that the same definition can be read over binary32 numbers, with NaN,
infinities and rounding, and over an ordered field, which is exact arithmetic. Addition, the other
operations and the comparisons come from the usual classes; `CNum` adds what C does besides.
-/

namespace EdnaDrone

open Lib

/-- The conversions, literals and library functions of C's `float` that the code uses. -/
class CNum (F : Type) where
  /-- The value of a floating literal. -/
  ofRat : ℚ → F
  ofInt : ℤ → F
  /-- The conversion to an integer type, truncating toward zero. -/
  toInt : F → ℤ
  feq : F → F → Bool
  fabs : F → F

/-- C's `float`. -/
abbrev CFloat : Type := Flt binary32

/-- C's `double`, Python's `float` and JavaScript's `Number`. -/
abbrev CDouble : Type := Flt binary64

instance {fmt : FloatFormat} : CNum (Flt fmt) where
  ofRat := Flt.ofRat
  ofInt n := Flt.ofRat n
  toInt := Flt.trunc
  feq := Flt.numEq
  fabs := Flt.abs

/-- Exact arithmetic in an ordered field. -/
instance {K : Type} [Field K] [LinearOrder K] [FloorRing K] : CNum K where
  ofRat q := q
  ofInt n := n
  toInt x := if 0 ≤ x then ⌊x⌋ else ⌈x⌉
  feq x y := decide (x = y)
  fabs x := |x|

/-- The time step that `imu_task` and `flight_controller_update` use for the time between two 32-bit
readings of the timer, in seconds: readings that are equal or more than 0.1 s apart count as 10 ms. -/
def guardedDt {F : Type} [Div F] [LT F] [DecidableLT F] [LE F] [DecidableLE F] [CNum F]
    (nowUs lastUs : UInt32) : F :=
  let dt : F := CNum.ofInt (nowUs - lastUs).toNat / CNum.ofRat 1000000
  if dt ≤ CNum.ofRat 0 ∨ CNum.ofRat (1 / 10) < dt then CNum.ofRat (1 / 100) else dt

section Exact

variable {K : Type} [Field K] [LinearOrder K] [FloorRing K]

theorem ofRat_exact (q : ℚ) : (CNum.ofRat q : K) = (q : K) := rfl

theorem ofInt_exact (n : ℤ) : (CNum.ofInt n : K) = (n : K) := rfl

theorem toInt_of_nonneg {x : K} (h : 0 ≤ x) : CNum.toInt x = ⌊x⌋ := if_pos h

end Exact

end EdnaDrone
