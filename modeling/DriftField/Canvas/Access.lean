import DriftField.Canvas
/-!
Strokes as they are carried out, pixel by pixel. A pixel is looked up by its place in the picture, and a place that is
not there ends the stroke.
-/

namespace DriftField.Canvas

def access (c : Canvas) (i : Nat) (f : Colour → Colour) : Option Canvas :=
  if i < c.pixels.size then some (c.modify i f) else none

def stamp? (c : Canvas) (half : Float) (colour : Colour) (alpha : Float) (center : Vec) : Option Canvas :=
  let columns := Run.around center.x half c.width
  let rows := Run.around center.y half c.height
  let width := c.width
  rows.toList.foldlM (fun c y =>
    columns.toList.foldlM (fun c x => c.access (y * width + x) (painted colour alpha)) c) c

def stroke? (c : Canvas) (start stop : Vec) (colour : Colour) (width alpha : Float) : Option Canvas :=
  if start.isFinite && stop.isFinite && Scalar.isFinite width && width > 0.0 then
    (strokeCenters start stop).foldlM (fun c p => c.stamp? (brush width) colour alpha p) c
  else some c

def segment? (c : Canvas) (s : Segment) : Option Canvas := c.stroke? s.start s.stop s.colour s.width 1.0

end DriftField.Canvas
