import DriftField.Expr.Source
import DriftField.Noise.Gradient
import DriftField.Stream
/-!
Noise fields: several octaves of gradient noise are added up, and the sum is taken as an angle.
-/

namespace DriftField

namespace Noise

inductive Variant where
  /-- Cosine and sine. -/
  | angle
  /-- Tangent and sine. -/
  | tangent
  deriving DecidableEq, Repr

def Variant.vector (variant : Variant) (a : Float) : Vec :=
  match variant with
  | .angle => ⟨a.cos, a.sin⟩
  | .tangent => ⟨a.tan, a.sin⟩

/-- Adds octaves of noise to `sum`, each of half the weight and twice the spatial frequency of the one
before. -/
def octaveSum (noise : Vec → Float) (p : Vec) : (octaves : Nat) → (weight k sum : Float) → Float
  | 0, _, _, sum => sum
  | octaves + 1, weight, k, sum =>
      let weight := weight * 0.5
      let n := noise (planePoint (k * p.x) (k * p.y))
      octaveSum noise p octaves weight (k * 2.0) (sum + weight * (1.0 + n) / 2.0)

end Noise

structure NoiseField where
  table : Noise.Permutation
  octaves : Nat
  frequency : Float
  variant : Noise.Variant

namespace NoiseField

open Noise

/-- The field of a seed. It has at least one octave. -/
def ofSeed (seed : UInt32) (octaves : Nat) (frequency : Float) (variant : Variant) : NoiseField :=
  ⟨Permutation.ofSeed seed, max octaves 1, frequency, variant⟩

def random : Draw NoiseField := do
  let seed ← Draw.word
  let octaves ← Draw.unit
  let frequency ← Draw.between 1.0 21.0
  let variant ← Draw.index 2 (by decide)
  return ofSeed seed.toUInt32 (Scalar.roundAway (octaves * 5.0 + 1.0)).toUInt64.toNat frequency
    (if variant = 0 then .angle else .tangent)

def scalar (f : NoiseField) (p : Vec) : Float := octaveSum (gradientNoise f.table) p f.octaves 1.0 1.0 0.0

def sample (f : NoiseField) (p : Vec) : Vec := f.variant.vector (f.scalar p * f.frequency)

end NoiseField

end DriftField
