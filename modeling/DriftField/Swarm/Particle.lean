import DriftField.Colour
import DriftField.Settings.Swarm
import DriftField.Swarm.Trail
import DriftField.Viewport
/-!
Particles: how they come into being, move, age and end.
-/

namespace DriftField

structure Particle where
  position : Vec
  speed : Float
  /-- What is left of its life; at zero a new life begins. -/
  life : Float
  /-- Ticks since its life began. -/
  age : Nat
  colour : Colour
  trail : Trail

def Span.draw (s : Span) : Draw Float := Draw.between s.low s.high

def Viewport.draw (view : Viewport) : Draw Vec := do
  let x ← Draw.between 0.0 view.width
  let y ← Draw.between 0.0 view.height
  return ⟨x, y⟩

namespace Particle

def spawn (s : SwarmSettings) (view : Viewport) : Draw Particle := do
  let position ← view.draw
  let speed ← s.speed.draw
  let life ← s.life.draw
  let colour ← Colour.bright
  return ⟨position, speed, life, 0, colour, .empty s.trailLength⟩

def burst (s : SwarmSettings) (center : Vec) : Draw Particle := do
  let x ← Draw.between (-s.burstJitter) s.burstJitter
  let y ← Draw.between (-s.burstJitter) s.burstJitter
  let speed ← s.burstSpeed.draw
  let life ← s.burstLife.draw
  let colour ← Colour.bright
  return ⟨center + ⟨x, y⟩, speed, life, 0, colour, .empty s.trailLength⟩

def respawn (s : SwarmSettings) (view : Viewport) (p : Particle) : Draw Particle := do
  let position ← view.draw
  let colour ← Colour.bright
  let life ← s.life.draw
  let speed ← s.speed.draw
  return ⟨position, speed, life, 0, colour, p.trail.clear⟩

def relocate (view : Viewport) (p : Particle) : Draw Particle := do
  let position ← view.draw
  return { p with position, trail := p.trail.clear }

/-- The time at which a tick ends, and its length in time steps. -/
structure Clock where
  now : Float
  step : Float

def stride (s : SwarmSettings) (clock : Clock) (velocity : Vec) (p : Particle) : Vec :=
  ((velocity.scale p.speed).scale s.stepScale).scale clock.step

/-- Whether a particle may take a step: it is not too long and leads to a finite place. -/
def admits (s : SwarmSettings) (p : Particle) (step : Vec) : Bool :=
  !(step.x.abs > s.greatestStep || step.y.abs > s.greatestStep || !(p.position + step).isFinite)

/-- Takes a step, or puts the particle elsewhere; says whether it did the latter. -/
def move (s : SwarmSettings) (view : Viewport) (step : Vec) (p : Particle) : Draw (Particle × Bool) :=
  if p.admits s step then return ({ p with position := p.position + step }, false)
  else do return (← p.relocate view, true)

def extendTrail (s : SwarmSettings) (now : Float) (p : Particle) : Particle :=
  let t := if p.position.isFinite then p.trail.push p.position now else p.trail
  { p with trail := t.evict now s.trailAge }

def grow (s : SwarmSettings) (step : Float) (p : Particle) : Particle :=
  { p with age := p.age + 1, life := p.life - s.decay * step }

/-- What a tick made of a particle; `none` if it was removed. -/
structure Outcome where
  particle : Option Particle
  relocated : Bool
  respawned : Bool

/-- Moves a particle, removes it if it is too far outside, and else extends its trail, ages it, and
begins a new life if the old one is over. -/
def tick (s : SwarmSettings) (view : Viewport) (clock : Clock) (velocity : Vec → Vec) (p : Particle) :
    Draw Outcome := do
  let (p, relocated) ← p.move s view (p.stride s clock (velocity p.position))
  if !view.contains s.margin p.position then return ⟨none, relocated, false⟩
  let p := (p.extendTrail s clock.now).grow s clock.step
  if p.life <= 0.0 then
    let p ← p.respawn s view
    return ⟨some p, relocated, true⟩
  return ⟨some p, relocated, false⟩

end Particle

end DriftField
