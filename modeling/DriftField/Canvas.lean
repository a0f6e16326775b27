import DriftField.Arrow
import DriftField.Swarm.Segment
/-!
Canvases: pictures into which segments and arrows are stroked with a square brush, and which fade to the
background.
-/

namespace DriftField

/-- A picture. Its pixels stand row by row. -/
structure Canvas where
  width : Nat
  height : Nat
  pixels : Array Colour
  size_pixels : pixels.size = width * height

namespace Canvas

def sizeBound : Nat := UInt64.size

def ofSides? (width height : Nat) : Option Canvas :=
  if width = 0 || height = 0 || sizeBound ≤ width * height then none
  else some ⟨width, height, Array.replicate (width * height) Colour.background, Array.size_replicate⟩

@[inline] def modify (c : Canvas) (i : Nat) (f : Colour → Colour) : Canvas :=
  { c with pixels := c.pixels.modify i f, size_pixels := by simp [c.size_pixels] }

def map (c : Canvas) (f : Colour → Colour) : Canvas :=
  { c with pixels := c.pixels.map f, size_pixels := by simp [c.size_pixels] }

/-- The pixel in column `x` of row `y`. -/
def get? (c : Canvas) (x y : Nat) : Option Colour :=
  if x < c.width ∧ y < c.height then c.pixels[y * c.width + x]? else none

def clear (c : Canvas) : Canvas := c.map fun _ => Colour.background

/-- Moves every pixel toward the background by a part of the way. -/
def fade (c : Canvas) (amount : Float) : Canvas :=
  if amount >= 1.0 then c.clear else c.map fun p => p.blend Colour.background amount

structure Run where
  start : Nat
  stop : Nat

namespace Run

/-- The pixels between `center - half` and `center + half`, as far as they lie below `limit`. -/
def around (center half : Float) (limit : Nat) : Run :=
  let low := Scalar.greater (Scalar.floor (center - half)) 0.0
  let high := Scalar.lesser (Scalar.ceiling (center + half)) limit.toUInt64.toFloat
  if high <= low then ⟨0, 0⟩ else ⟨low.toUInt64.toNat, high.toUInt64.toNat⟩

def toList (r : Run) : List Nat := List.range' r.start (r.stop - r.start)

@[inline] def fold {α : Type} (r : Run) (f : α → Nat → α) (a : α) : α :=
  Nat.fold (r.stop - r.start) (fun i _ a => f a (r.start + i)) a

theorem fold_eq_foldl_toList {α : Type} (r : Run) (f : α → Nat → α) (a : α) :
    r.fold f a = r.toList.foldl f a := by
  simp only [fold, toList, List.range'_eq_map_range, List.foldl_map]
  induction r.stop - r.start with
  | zero => rfl
  | succ n ih => simp [Nat.fold_succ, List.range_succ, ih]

end Run

/-- What a pixel becomes under a brush of a colour and an opacity. -/
def painted (colour : Colour) (alpha : Float) (old : Colour) : Colour :=
  if alpha >= 1.0 then colour else old.blend colour alpha

def stamp (c : Canvas) (half : Float) (colour : Colour) (alpha : Float) (center : Vec) : Canvas :=
  let columns := Run.around center.x half c.width
  let rows := Run.around center.y half c.height
  let width := c.width
  rows.fold (fun c y => columns.fold (fun c x => c.modify (y * width + x) (painted colour alpha)) c) c

def greatestSteps : Float := 4096.0

/-- The number of steps of a stroke: one for each pixel along its longer side. -/
def stepCount (span : Vec) : Nat :=
  (Scalar.lesser (Scalar.ceiling (Scalar.greater span.x.abs span.y.abs)) greatestSteps).toUInt64.toNat

def progress (i n : Nat) : Float :=
  if n = 0 then 0.0 else i.toUInt64.toFloat / n.toUInt64.toFloat

def strokeCenters (start stop : Vec) : List Vec :=
  let span := stop - start
  let n := stepCount span
  (List.range (n + 1)).map fun i => start + span.scale (progress i n)

/-- Half the side of the brush of a stroke. -/
def brush (width : Float) : Float := Scalar.greater (width / 2.0) 0.5

/-- Strokes a line. One without finite ends or without a positive finite width leaves no mark. -/
def stroke (c : Canvas) (start stop : Vec) (colour : Colour) (width alpha : Float) : Canvas :=
  if start.isFinite && stop.isFinite && Scalar.isFinite width && width > 0.0 then
    (strokeCenters start stop).foldl (fun c p => c.stamp (brush width) colour alpha p) c
  else c

def segment (c : Canvas) (s : Segment) : Canvas := c.stroke s.start s.stop s.colour s.width 1.0

def arrow (c : Canvas) (a : Arrow) : Canvas :=
  [(a.origin, a.tip), (a.tip, a.left), (a.tip, a.right)].foldl
    (fun c (start, stop) => c.stroke start stop Colour.white 1.0 a.alpha) c

def bytes (c : Canvas) : List UInt8 := c.pixels.toList.flatMap fun p => p.bytes ++ [255]

end Canvas

end DriftField
