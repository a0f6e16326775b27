import DriftField.Scalar.Order
import DriftField.Scalar.Parts
/-!
The exact remainder of a division, computed on whole numbers of the operands' common unit.
-/

namespace DriftField.Scalar

/-- The remainder of two finite magnitudes, the second not zero. Both are brought to the smaller of their
scales, where the remainder has fewer than 54 bits and so is a binary64 number. -/
def remainderOfMagnitudes (a b : Float) : Float :=
  let e := min (scale a) (scale b)
  ofParts ((significand a <<< (scale a - e)) % (significand b <<< (scale b - e))) e

/-- The remainder of `a / b` when the quotient is cut toward zero. It has the sign of `a` and is exact. -/
def remainder (a b : Float) : Float :=
  if a.isNaN || b.isNaN || !isFinite a || b == 0.0 then nan
  else if a.abs < b.abs then a
  else withSignOf a (remainderOfMagnitudes a b)

/-- The remainder brought into `[0, |b|]` by adding `|b|` to a negative one. -/
def wrap (a b : Float) : Float :=
  let r := remainder a b
  if r < 0.0 then r + b.abs else r

end DriftField.Scalar
