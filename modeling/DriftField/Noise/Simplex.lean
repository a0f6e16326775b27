import DriftField.Noise.Permutation
/-!
Simplex noise in the plane and in space. The lattice of cubes is squeezed along its main diagonal into
one of simplices; at a point the gradients of the lattice points near it are added up, each fading with
the distance from its lattice point.
-/

namespace DriftField.Noise

/-- What sets simplex noise of one dimension apart from that of another. -/
structure Simplex (P : Type) where
  /-- Takes points to the lattice of cubes. -/
  stretch : Float
  /-- Takes the lattice of cubes back. -/
  squish : Float
  /-- The corners that count, by how far along the diagonal of its cube a point lies. -/
  corners : Float → List P
  /-- The gradient of a random byte. -/
  gradient : UInt8 → P

def simplexGain : Float := 1.0 / 14.0

variable {P : Type} [Coordinates P]

@[inline] def contribution (gradient : P) (q : P) : Float :=
  let t := 2.0 - dot q q
  if t > 0.0 then t * t * (t * t) * dot q gradient else 0.0

@[specialize] def Simplex.noise (s : Simplex P) (t : Permutation) (p : P) : Float :=
  let stretched := shift p (total p * s.stretch)
  let corner := cell stretched
  let origin := shift corner (total corner * s.squish)
  let inside := total (minus stretched corner)
  let position := minus p origin
  let sum := (s.corners inside).foldl (fun sum o =>
    sum + contribution (s.gradient (t.hash (plus corner o)))
      (minus (shift position (-(s.squish * total o))) o)) 0.0
  sum * simplexGain

def halfRoot : Float := 0.7071067811865476

def thirdRoot : Float := 0.5773502691896258

def planeGradients : Vector Vec 8 :=
  #v[⟨1.0, 0.0⟩, ⟨-1.0, 0.0⟩, ⟨0.0, 1.0⟩, ⟨0.0, -1.0⟩,
    ⟨halfRoot, halfRoot⟩, ⟨-halfRoot, halfRoot⟩, ⟨halfRoot, -halfRoot⟩, ⟨-halfRoot, -halfRoot⟩]

def planeCornersLow : List Vec := [⟨1.0, 0.0⟩, ⟨0.0, 1.0⟩, ⟨0.0, 0.0⟩]

def planeCornersHigh : List Vec := [⟨1.0, 0.0⟩, ⟨0.0, 1.0⟩, ⟨1.0, 1.0⟩]

def plane : Simplex Vec where
  stretch := -0.211324865405187
  squish := 0.366025403784439
  corners inside := if inside > 1.0 then planeCornersHigh else planeCornersLow
  gradient byte := planeGradients.get (Fin.ofNat 8 byte.toNat)

def edgeGradients : List Triple :=
  [⟨halfRoot, halfRoot, 0.0⟩, ⟨-halfRoot, halfRoot, 0.0⟩, ⟨halfRoot, -halfRoot, 0.0⟩,
    ⟨-halfRoot, -halfRoot, 0.0⟩, ⟨halfRoot, 0.0, halfRoot⟩, ⟨-halfRoot, 0.0, halfRoot⟩,
    ⟨halfRoot, 0.0, -halfRoot⟩, ⟨-halfRoot, 0.0, -halfRoot⟩, ⟨0.0, halfRoot, halfRoot⟩,
    ⟨0.0, -halfRoot, halfRoot⟩, ⟨0.0, halfRoot, -halfRoot⟩, ⟨0.0, -halfRoot, -halfRoot⟩]

def cornerGradients : List Triple :=
  [⟨thirdRoot, thirdRoot, thirdRoot⟩, ⟨-thirdRoot, thirdRoot, thirdRoot⟩,
    ⟨thirdRoot, -thirdRoot, thirdRoot⟩, ⟨-thirdRoot, -thirdRoot, thirdRoot⟩,
    ⟨thirdRoot, thirdRoot, -thirdRoot⟩, ⟨-thirdRoot, thirdRoot, -thirdRoot⟩,
    ⟨thirdRoot, -thirdRoot, -thirdRoot⟩, ⟨-thirdRoot, -thirdRoot, -thirdRoot⟩]

/-- Thirty-two directions in space: those to the edges of a cube twice, and those to its corners. -/
def spaceGradients : Vector Triple 32 :=
  ⟨(edgeGradients ++ edgeGradients ++ cornerGradients).toArray, rfl⟩

def spaceCornersLow : List Triple :=
  [⟨0.0, 0.0, 0.0⟩, ⟨1.0, 0.0, 0.0⟩, ⟨0.0, 1.0, 0.0⟩, ⟨0.0, 0.0, 1.0⟩]

def spaceCornersHigh : List Triple :=
  [⟨1.0, 1.0, 0.0⟩, ⟨1.0, 0.0, 1.0⟩, ⟨0.0, 1.0, 1.0⟩, ⟨1.0, 1.0, 1.0⟩]

def spaceCornersMiddle : List Triple :=
  [⟨1.0, 0.0, 0.0⟩, ⟨0.0, 1.0, 0.0⟩, ⟨0.0, 0.0, 1.0⟩, ⟨1.0, 1.0, 0.0⟩, ⟨1.0, 0.0, 1.0⟩, ⟨0.0, 1.0, 1.0⟩]

def space : Simplex Triple where
  stretch := -1.0 / 6.0
  squish := 1.0 / 3.0
  corners inside :=
    if inside <= 1.0 then spaceCornersLow
    else if inside >= 2.0 then spaceCornersHigh
    else spaceCornersMiddle
  gradient byte := spaceGradients.get (Fin.ofNat 32 byte.toNat)

/-- Smooth noise in the plane and in space. -/
structure Source where
  plane : Vec → Float
  space : Triple → Float

def Source.ofSeed (seed : UInt32) : Source :=
  let t := Permutation.ofSeed seed
  ⟨fun p => Noise.plane.noise t p, fun p => Noise.space.noise t p⟩

end DriftField.Noise
