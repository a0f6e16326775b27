import DriftField.Swarm.Particle
/-!
Swarms: the particles in the order of their coming into being, and the clock. A tick moves every particle
and then brings the population back between the one that is aimed at and the ceiling. Populations are
machine words: where one would be too great, the operation that computes it does not come to an end.
-/

namespace DriftField

structure TickStats where
  relocated : Nat
  culled : Nat
  respawned : Nat
  trimmed : Nat
  spawned : Nat
  deriving DecidableEq

def TickStats.zero : TickStats := ⟨0, 0, 0, 0, 0⟩

structure Swarm where
  settings : SwarmSettings
  view : Viewport
  particles : List Particle
  /-- Milliseconds. -/
  clock : Float
  lastTick : TickStats

namespace Swarm

def timeStep : Float := 16.67

def size (swarm : Swarm) : Nat := swarm.particles.length

def drawMany {α : Type} (n : Nat) (draw : Draw α) : Draw (List α) := (List.replicate n draw).mapM id

/-- Draws as many particles as the population lacks, and says how many. -/
def replenish (s : SwarmSettings) (view : Viewport) (particles : List Particle) :
    Draw (List Particle × Nat) := do
  let missing := s.count - particles.length
  let fresh ← drawMany missing (Particle.spawn s view)
  return (particles ++ fresh, missing)

def reset (swarm : Swarm) : Draw Swarm := do
  let (particles, _) ← replenish swarm.settings swarm.view []
  return { swarm with particles }

def start (s : SwarmSettings) (view : Viewport) : Draw Swarm := reset ⟨s, view, [], 0.0, .zero⟩

/-- Changes the settings. Trails are cut at once; the population follows in the next tick. -/
def withSettings (swarm : Swarm) (s : SwarmSettings) : Swarm :=
  { swarm with
    settings := s
    particles := swarm.particles.map fun p => { p with trail := p.trail.withCapacity s.trailLength } }

/-- The milliseconds by which a tick advances the clock: none unless `delta` is positive and finite. -/
def advance (delta : Float) : Float := if Scalar.isFinite delta && delta > 0.0 then delta else 0.0

def sweep (swarm : Swarm) (clock : Particle.Clock) (velocity : Vec → Vec) : Draw (List Particle.Outcome) :=
  swarm.particles.mapM (Particle.tick swarm.settings swarm.view clock velocity)

def tick (swarm : Swarm) (delta : Float) (velocity : Vec → Vec) : Draw Swarm := do
  let s := swarm.settings
  let delta := advance delta
  let now := swarm.clock + delta
  let outcomes ← swarm.sweep ⟨now, delta / timeStep⟩ velocity
  let kept := outcomes.filterMap (·.particle)
  let (particles, spawned) ← replenish s swarm.view (newest s.ceiling kept)
  return { swarm with
    particles
    clock := now
    lastTick :=
      { relocated := outcomes.countP (·.relocated)
        culled := outcomes.countP (·.particle.isNone)
        respawned := outcomes.countP (·.respawned)
        trimmed := kept.length - s.ceiling
        spawned } }

/-- Adds `n` particles around a point. If they are then too many, the oldest ones are dropped. -/
def burst (swarm : Swarm) (center : Vec) (n : Nat) : Draw Swarm := do
  let s := swarm.settings
  let fresh ← drawMany n (Particle.burst s center)
  let particles := swarm.particles ++ fresh
  return { swarm with
    particles := if particles.length > s.ceiling then newest s.afterBurst particles else particles }

/-- The swarm after a tick and the stream that is left, if the tick comes to an end. -/
def tick? (swarm : Swarm) (delta : Float) (velocity : Vec → Vec) (stream : Stream) : Option (Swarm × Stream) :=
  if swarm.settings.CeilingFits then some ((swarm.tick delta velocity).run stream) else none

/-- What a burst computes are machine words. It doubles the count only to cut the population. -/
def BurstFits (swarm : Swarm) (n : Nat) : Prop :=
  swarm.settings.CeilingFits ∧
    (swarm.settings.ceiling < swarm.size + n → swarm.settings.afterBurst < UInt64.size)

instance (swarm : Swarm) (n : Nat) : Decidable (swarm.BurstFits n) := instDecidableAnd

def burst? (swarm : Swarm) (center : Vec) (n : Nat) (stream : Stream) : Option (Swarm × Stream) :=
  if swarm.BurstFits n then some ((swarm.burst center n).run stream) else none

end Swarm

end DriftField
