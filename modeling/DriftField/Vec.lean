import DriftField.Scalar.Order
/-!
Points and velocities of the plane. Arithmetic is component by component.
-/

namespace DriftField

structure Vec where
  x : Float
  y : Float

namespace Vec

def zero : Vec := ⟨0.0, 0.0⟩

instance : Add Vec := ⟨fun a b => ⟨a.x + b.x, a.y + b.y⟩⟩
instance : Sub Vec := ⟨fun a b => ⟨a.x - b.x, a.y - b.y⟩⟩
instance : Mul Vec := ⟨fun a b => ⟨a.x * b.x, a.y * b.y⟩⟩
instance : Div Vec := ⟨fun a b => ⟨a.x / b.x, a.y / b.y⟩⟩

def scale (v : Vec) (k : Float) : Vec := ⟨v.x * k, v.y * k⟩

def isFinite (v : Vec) : Bool := Scalar.isFinite v.x && Scalar.isFinite v.y

def length (v : Vec) : Float := (v.x * v.x + v.y * v.y).sqrt

def distance (a b : Vec) : Float := (a - b).length

def perp (v : Vec) : Vec := ⟨-v.y, v.x⟩

def ofAngle (a : Float) : Vec := ⟨a.cos, a.sin⟩

def finiteOrZero (v : Vec) : Vec := if v.isFinite then v else zero

def clamp (v : Vec) (limit : Float) : Vec :=
  ⟨Scalar.clampSymmetric v.x limit, Scalar.clampSymmetric v.y limit⟩

end Vec

end DriftField
