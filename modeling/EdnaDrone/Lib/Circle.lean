import Mathlib.Algebra.Order.Round
import Mathlib.Tactic

/-!
# Distance on a circle

The distance of two coordinates on a circle of circumference `T`, over any ordered field: the distance
on the line, up to multiples of `T`. A point that moves toward another one along the line can move
away from it on the circle.
-/

namespace Lib

variable {K : Type*} [Field K] [LinearOrder K] [IsStrictOrderedRing K] [FloorRing K]

variable {T x y r g : K}

end Lib
