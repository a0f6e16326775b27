import DriftField.Noise.Permutation
/-!
Gradient noise on the square lattice. Each lattice point has a diagonal gradient; at a point of the plane
the four gradients around it are blended.
-/

namespace DriftField.Noise

def ease (t : Float) : Float :=
  let t := Scalar.confine 0.0 1.0 t
  t * t * t * (t * (t * 6.0 - 15.0) + 10.0)

def mix (a b t : Float) : Float := b * t + a * (1.0 - t)

def slope (byte : UInt8) (p : Vec) : Float :=
  match (byte % 4).toNat with
  | 0 => p.x + p.y
  | 1 => -p.x + p.y
  | 2 => p.x - p.y
  | _ => -p.x - p.y

def gradientGain : Float := 2.0 / 1.4142135623730951

def gradientNoise (t : Permutation) (p : Vec) : Float :=
  let corner := cell p
  let d := p - corner
  let value (o : Vec) : Float := slope (t.hash (corner + o)) (d - o)
  let cx := ease d.x
  let cy := ease d.y
  let left := mix (value ⟨0.0, 0.0⟩) (value ⟨0.0, 1.0⟩) cy
  let right := mix (value ⟨1.0, 0.0⟩) (value ⟨1.0, 1.0⟩) cy
  Scalar.confine (-1.0) 1.0 (mix left right cx * gradientGain)

end DriftField.Noise
