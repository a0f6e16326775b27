/-!
Settings of the swarm of particles.
-/

namespace DriftField

structure Span where
  low : Float
  high : Float

structure SwarmSettings where
  /-- The population that is aimed at. -/
  count : Nat
  /-- The most samples in a trail. -/
  trailLength : Nat
  /-- Milliseconds after which a trail sample is dropped. -/
  trailAge : Float
  speed : Span
  life : Span
  burstSpeed : Span
  burstLife : Span
  /-- Half the side of the square over which a burst scatters particles. -/
  burstJitter : Float
  /-- The part of velocity times speed that a particle moves in one time step. -/
  stepScale : Float
  /-- The step along one axis beyond which a particle is taken away and put elsewhere. -/
  greatestStep : Float
  /-- The distance outside the visible area at which particles are removed. -/
  margin : Float
  /-- The life that a particle loses in one time step. -/
  decay : Float
  /-- The greatest population as a multiple of the one that is aimed at. -/
  ceilingFactor : Nat

namespace SwarmSettings

def positiveCount (s : SwarmSettings) : Nat := max s.count 1

def ceiling (s : SwarmSettings) : Nat := max s.ceilingFactor 1 * s.positiveCount

/-- The ceiling is a machine word. -/
def CeilingFits (s : SwarmSettings) : Prop := s.ceiling < UInt64.size

instance (s : SwarmSettings) : Decidable s.CeilingFits := Nat.decLt _ _

def afterBurst (s : SwarmSettings) : Nat := 2 * s.positiveCount

def standard : SwarmSettings where
  count := 1000
  trailLength := 5
  trailAge := 1500.0
  speed := ⟨0.6, 2.5⟩
  life := ⟨0.7, 1.0⟩
  burstSpeed := ⟨0.8, 3.0⟩
  burstLife := ⟨0.8, 1.0⟩
  burstJitter := 20.0
  stepScale := 0.5
  greatestStep := 60.0
  margin := 100.0
  decay := 0.001
  ceilingFactor := 3

end SwarmSettings

end DriftField
