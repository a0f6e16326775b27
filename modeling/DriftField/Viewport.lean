import DriftField.Vec
/-!
The visible area. Its origin is the upper left corner.
-/

namespace DriftField

def Viewport.admits (width height : Float) : Bool :=
  Scalar.isFinite width && Scalar.isFinite height && width > 0.0 && height > 0.0

structure Viewport where
  width : Float
  height : Float
  admitted : Viewport.admits width height = true

namespace Viewport

/-- The area of the given sides, if an area may have them. -/
def ofSides? (width height : Float) : Option Viewport :=
  if h : admits width height = true then some ⟨width, height, h⟩ else none

def size (view : Viewport) : Vec := ⟨view.width, view.height⟩

def center (view : Viewport) : Vec := view.size.scale 0.5

/-- Whether `p` lies in the area grown by `margin` on every side. -/
def contains (view : Viewport) (margin : Float) (p : Vec) : Bool :=
  p.x >= -margin && p.x <= view.width + margin && p.y >= -margin && p.y <= view.height + margin

end Viewport

end DriftField
