import DriftField.Scalar.Order
/-!
Rounding to whole numbers. From `2 ^ 53` on every number is whole, so below that bound a machine word
holds the whole part.
-/

namespace DriftField.Scalar

def truncate (v : Float) : Float :=
  if v.abs < 9007199254740992.0 then withSignOf v v.abs.toUInt64.toFloat else v

def floor (v : Float) : Float :=
  let t := truncate v
  if v < t then t - 1.0 else t

def ceiling (v : Float) : Float :=
  let t := truncate v
  if t < v then t + 1.0 else t

/-- The nearest whole number; a half goes away from zero. -/
def roundAway (v : Float) : Float :=
  if v.abs < 4503599627370496.0 then
    let t := truncate v
    if (v - t).abs < 0.5 then t else t + withSignOf v 1.0
  else v

/-- The nearest whole number; a half goes up. A zero result has the sign of `v`. -/
def roundUp (v : Float) : Float :=
  let f := floor v
  let r := if v - f >= 0.5 then f + 1.0 else f
  if r == 0.0 then withSignOf v r else r

end DriftField.Scalar
