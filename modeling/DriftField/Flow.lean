import DriftField.Expr.Source
import DriftField.Noise.Simplex
import DriftField.Settings.Flow
import DriftField.Viewport
/-!
The flow: the velocity at every point of the visible area. A base field is sampled and bounded; drift,
noise, waves and the pointer force are added; the sum is scaled and bounded again. Whatever the base
field returns, the velocity is finite.
-/

namespace DriftField

/-- What changes from frame to frame. -/
structure Moment where
  seconds : Float
  pointer : Option Vec
  view : Viewport

/-- What a base field is to the flow: a vector, or none, for every point. -/
abbrev Sampler := Vec → Except SampleFault Vec

structure Flow where
  settings : FlowSettings
  noise : Noise.Source

namespace Flow

def ofSeed (settings : FlowSettings) (seed : UInt32) : Flow := ⟨settings, .ofSeed seed⟩

def noiseInSpace (f : Flow) (x y z : Float) : Float := f.noise.space (Noise.spacePoint x y z)

def noiseInPlane (f : Flow) (x y : Float) : Float := f.noise.plane (Noise.planePoint x y)

def toUnit (n : Float) : Float := (n + 1.0) / 2.0

/-- The point of the base field that stands at a point of the visible area. -/
def normalize (f : Flow) (view : Viewport) (p : Vec) : Vec :=
  (p - view.center) / view.size.scale f.settings.coordinateScale

/-- The vector of a sample, zero if there is none or it is not finite. -/
def sampled : Except SampleFault Vec → Vec
  | .ok v => v.finiteOrZero
  | .error _ => Vec.zero

def base (f : Flow) (view : Viewport) (field : Option Sampler) (p : Vec) : Vec :=
  match field with
  | none => Vec.zero
  | some sample => (sampled (sample (f.normalize view p))).clamp f.settings.baseBound

/-- What one octave of noise adds. An octave without amplitude adds nothing. -/
def addOctave (f : Flow) (seconds : Float) (p : Vec) (sum : Vec) (o : Octave) : Vec :=
  let amplitude := o.amplitude * f.settings.noiseGain
  if amplitude == 0.0 then sum
  else
    let q := p.scale o.frequency
    let z := seconds * o.rate + o.offset
    let v : Vec := ⟨f.noiseInSpace q.x q.y z, f.noiseInSpace (q.x + 100.0) (q.y + 100.0) z⟩
    sum + v.scale amplitude

def addWaves (f : Flow) (seconds : Float) (p : Vec) (sum : Vec) : Vec :=
  let w := f.settings.waves
  if w.amplitude == 0.0 then sum
  else
    let v : Vec :=
      ⟨(p.y * w.frequency + seconds * w.speed).sin,
        (p.x * w.frequency * 1.3 + seconds * w.speed * 0.7).cos⟩
    sum + v.scale w.amplitude

/-- The pull toward the pointer and a swirl around it, fading with the distance. Without a pointer the
center of the visible area takes its place. -/
def pointerForce (f : Flow) (m : Moment) (p : Vec) : Vec :=
  let s := f.settings.pointer
  let pointer := m.pointer.getD m.view.center
  let distance := p.distance pointer
  let reach := Scalar.lesser m.view.width m.view.height * s.reach
  let pulse := toUnit (f.noiseInPlane (m.seconds * 0.3) (distance * 0.01)) * 0.5 + 0.5
  let strength :=
    Scalar.remap (Scalar.lesser (Scalar.greater distance 0.0) reach) 0.0 reach (0.9 * pulse) (0.1 * pulse)
  let pull := (pointer - p).scale s.attraction
  let turn := toUnit (f.noiseInSpace (m.seconds * 0.5) (p.x * 0.001) (p.y * 0.001)) * 2.0 - 1.0
  let swirl := pull.perp.scale (0.5 + turn * s.swirl)
  ((pull + swirl).scale strength).scale s.influence

def addPointerForce (f : Flow) (m : Moment) (p : Vec) (sum : Vec) : Vec :=
  if f.settings.pointer.influence == 0.0 then sum else sum + f.pointerForce m p

def perturbation (f : Flow) (m : Moment) (p : Vec) : Vec :=
  f.settings.octaves.foldl (f.addOctave m.seconds p) f.settings.drift
    |> f.addWaves m.seconds p
    |> f.addPointerForce m p

/-- The velocity at a point. A component that overflows stops at the bound. -/
def velocity (f : Flow) (m : Moment) (field : Option Sampler) (p : Vec) : Vec :=
  let s := f.settings
  let activity := s.activity.value m.seconds * s.activityGain * s.intensity
  let sum := f.base m.view field p + (f.perturbation m p).scale (s.breathe.value m.seconds)
  (sum.scale activity).clamp s.bound

end Flow

end DriftField
