import DriftField.Viewport
/-!
Arrows that show a field on a square grid.
-/

namespace DriftField

structure Arrow where
  origin : Vec
  tip : Vec
  magnitude : Float
  /-- Opacity, at most one. -/
  alpha : Float
  /-- The ends of the two strokes of the head, which start at the tip. -/
  left : Vec
  right : Vec

namespace Arrow

def spacing : Float := 60.0

def leastMagnitude : Float := 0.5

def lengthOf (magnitude : Float) : Float := Scalar.lesser (Scalar.greater (magnitude * 0.1) 3.0) 15.0

def alphaOf (magnitude : Float) : Float :=
  Scalar.lesser (Scalar.remap magnitude 0.0 50.0 20.0 80.0 / 255.0) 1.0

def headAngle : Float := 0.4

def headLength : Float := 2.0

/-- The arrow of a vector that is finite and long enough. -/
def ofVector? (origin v : Vec) : Option Arrow :=
  let magnitude := v.length
  if !v.isFinite || magnitude <= leastMagnitude then none
  else
    let angle := Float.atan2 v.y v.x
    let tip := origin + (Vec.ofAngle angle).scale (lengthOf magnitude)
    some
      { origin, tip, magnitude
        alpha := alphaOf magnitude
        left := tip - (Vec.ofAngle (angle - headAngle)).scale headLength
        right := tip - (Vec.ofAngle (angle + headAngle)).scale headLength }

/-- The numbers from `v` on in distances of `step`, as far as they lie below `bound`. A sum that does not
exceed its summand ends them. -/
def marks (step bound v : Float) : List Float :=
  if v < bound then
    if _h : v.toBits < (v + step).toBits then v :: marks step bound (v + step) else [v]
  else []
termination_by UInt64.size - v.toBits.toNat
decreasing_by
  have := (v + step).toBits.toNat_lt_size
  simp only [UInt64.lt_iff_toNat_lt] at _h
  omega

/-- The arrows of a field at the points of a grid, row by row. A grid needs a positive and finite
distance. -/
def grid (view : Viewport) (step : Float) (field : Vec → Vec) : List Arrow :=
  if Scalar.isFinite step && step > 0.0 then
    let columns := marks step view.width 0.0
    (marks step view.height 0.0).flatMap fun y =>
      columns.filterMap fun x => ofVector? ⟨x, y⟩ (field ⟨x, y⟩)
  else []

end Arrow

end DriftField
