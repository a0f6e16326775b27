/-!
Order on binary64 numbers with every corner settled: greater and lesser of two numbers where one may
be no number, clamping, sign transfer, and the linear map between two ranges.
-/

namespace DriftField.Scalar

def isFinite (v : Float) : Bool := v.isFinite

def nan : Float := 0.0 / 0.0

def infinity : Float := 1.0 / 0.0

/-- The greater of two numbers; a NaN yields to the other operand. -/
def greater (a b : Float) : Float :=
  if a.isNaN then b else if b.isNaN then a else if a < b then b else a

def lesser (a b : Float) : Float :=
  if a.isNaN then b else if b.isNaN then a else if b < a then b else a

/-- Puts `v` between `low` and `high`. A NaN becomes `low`. -/
def within (low high v : Float) : Float := lesser (greater v low) high

/-- Puts `v` between `low` and `high` and keeps a NaN. -/
def confine (low high v : Float) : Float :=
  if v < low then low else if high < v then high else v

/-- Whether the sign bit is set, which tells the two zeros apart. -/
def isNegative (v : Float) : Bool := v.toBits >>> 63 == 1

def withSignOf (sign v : Float) : Float :=
  if isNegative sign then -v.abs else v.abs

/-- Puts `v` between `-|limit|` and `|limit|`. A NaN value becomes zero; a NaN limit bounds nothing. -/
def clampSymmetric (v limit : Float) : Float :=
  if v.isNaN then 0.0
  else if limit.isNaN then v
  else lesser (greater v (-limit.abs)) limit.abs

/-- Maps `v` linearly from `[inLow, inHigh]` to `[outLow, outHigh]`. A range of no width, or of no finite
width, maps everything to `outLow`. -/
def remap (v inLow inHigh outLow outHigh : Float) : Float :=
  let span := inHigh - inLow
  if span == 0.0 || !isFinite span then outLow
  else outLow + (outHigh - outLow) * ((v - inLow) / span)

end DriftField.Scalar
