import DriftField.Scalar.Remainder
import DriftField.Scalar.Rounding
import DriftField.Vec
/-!
Coordinates of noise: the range in which noise is sampled, points of the plane and of space alike, and
the cells of the lattice.
-/

namespace DriftField

structure Triple where
  x : Float
  y : Float
  z : Float

namespace Noise

def range : Float := 1000000000.0

/-- Brings a coordinate into the range in which noise is sampled. -/
def coordinate (c : Float) : Float :=
  if !Scalar.isFinite c then 0.0
  else if c.abs < range then c
  else Scalar.wrap c range

def planePoint (x y : Float) : Vec := ⟨coordinate x, coordinate y⟩

def spacePoint (x y z : Float) : Triple := ⟨coordinate x, coordinate y, coordinate z⟩

class Coordinates (P : Type) where
  /-- Changes every coordinate. -/
  map : (Float → Float) → P → P
  /-- Joins the coordinates of two points. -/
  zip : (Float → Float → Float) → P → P → P
  /-- Goes over the coordinates in their order. -/
  fold {β : Type} : (β → Float → β) → β → P → β

@[inline] instance : Coordinates Vec where
  map f p := ⟨f p.x, f p.y⟩
  zip f p q := ⟨f p.x q.x, f p.y q.y⟩
  fold f init p := f (f init p.x) p.y

@[inline] instance : Coordinates Triple where
  map f p := ⟨f p.x, f p.y, f p.z⟩
  zip f p q := ⟨f p.x q.x, f p.y q.y, f p.z q.z⟩
  fold f init p := f (f (f init p.x) p.y) p.z

variable {P : Type} [Coordinates P]

@[inline] def total (p : P) : Float := Coordinates.fold (fun sum c => sum + c) 0.0 p

@[inline] def dot (p q : P) : Float := total (Coordinates.zip (fun a b => a * b) p q)

@[inline] def shift (p : P) (d : Float) : P := Coordinates.map (fun c => c + d) p

@[inline] def minus (p q : P) : P := Coordinates.zip (fun a b => a - b) p q

@[inline] def plus (p q : P) : P := Coordinates.zip (fun a b => a + b) p q

/-- The lower end of the lattice cell of a coordinate. A coordinate that is whole and not positive belongs
to the cell that ends there. -/
def cellOf (c : Float) : Float :=
  if c <= 0.0 then Scalar.truncate c - 1.0 else Scalar.truncate c

@[inline] def cell (p : P) : P := Coordinates.map cellOf p

def lowByte (c : Float) : UInt8 :=
  let n := c.abs.toUInt64.toUInt8
  if c < 0.0 then 0 - n else n

end Noise

end DriftField
