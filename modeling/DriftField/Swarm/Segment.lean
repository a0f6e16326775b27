import DriftField.Swarm.Basic
/-!
The trails of a swarm as coloured line segments that grow wider toward the particle.
-/

namespace DriftField

structure Segment where
  start : Vec
  stop : Vec
  colour : Colour
  width : Float

namespace Segment

def lengthBound : Float := 50.0

def leastWidth : Float := 1.5

def greatestWidth : Float := 4.5

/-- The width of the segment that ends at place `i` of a trail of `n` samples. -/
def widthAt (i n : Nat) : Float :=
  Scalar.remap i.toUInt64.toFloat 0.0 n.toUInt64.toFloat leastWidth greatestWidth

/-- Whether two samples are joined: both are finite, apart, and not too far apart. -/
def joins (a b : Vec) : Bool :=
  a.isFinite && b.isFinite && a.distance b > 0.0 && a.distance b < lengthBound

def ofSamples (colour : Colour) (n : Nat) : (i : Nat) → List Sample → List Segment
  | i, a :: b :: rest =>
      let later := ofSamples colour n (i + 1) (b :: rest)
      if joins a.position b.position then
        ⟨a.position, b.position, colour, widthAt (i + 1) n⟩ :: later
      else later
  | _, _ => []

end Segment

def Particle.segments (p : Particle) : List Segment :=
  Segment.ofSamples p.colour p.trail.length 0 p.trail.samples

def Swarm.segments (swarm : Swarm) : List Segment := swarm.particles.flatMap Particle.segments

end DriftField
