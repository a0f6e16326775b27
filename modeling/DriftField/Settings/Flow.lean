import DriftField.Vec
/-!
Settings of the flow: how a base field is scaled and bounded, and the drift, noise, waves and pointer
force that are added to it.
-/

namespace DriftField

structure Octave where
  frequency : Float
  amplitude : Float
  /-- How fast the layer moves along the time axis of the noise. -/
  rate : Float
  /-- Where the layer starts on the time axis, apart from the other layers. -/
  offset : Float

structure Waves where
  frequency : Float
  speed : Float
  amplitude : Float

structure Oscillator where
  low : Float
  high : Float
  /-- Radians per second. -/
  rate : Float

namespace Oscillator

def fixed (v : Float) : Oscillator := ⟨v, v, 0.0⟩

def value (o : Oscillator) (seconds : Float) : Float :=
  (o.low + o.high) / 2.0 + (o.high - o.low) / 2.0 * (seconds * o.rate).sin

end Oscillator

structure PointerForce where
  /-- Factor on the whole force; zero turns it off. -/
  influence : Float
  /-- Pull per unit of distance. -/
  attraction : Float
  /-- The range of the force in shorter sides of the visible area. -/
  reach : Float
  /-- How far noise changes the swirl. -/
  swirl : Float

structure FlowSettings where
  /-- Coordinate scale at the neutral zoom. -/
  baseScale : Float
  /-- Zoom; a greater one shows more of the field. -/
  zoom : Float
  /-- Bound on the components of the base field. -/
  baseBound : Float
  /-- Bound on the components of the flow. -/
  bound : Float
  /-- A constant velocity. -/
  drift : Vec
  octaves : List Octave
  /-- Factor on the amplitude of every octave. -/
  noiseGain : Float
  waves : Waves
  /-- Factor on drift, noise, waves and pointer force. -/
  breathe : Oscillator
  /-- Factor on the flow. -/
  activity : Oscillator
  activityGain : Float
  intensity : Float
  pointer : PointerForce

namespace FlowSettings

def neutralZoom : Float := 5.0

/-- The zoom in proportion to the neutral one; a zoom that is not positive and finite counts as
neutral. -/
def zoomFactor (s : FlowSettings) : Float :=
  if Scalar.isFinite s.zoom && s.zoom > 0.0 then s.zoom / neutralZoom else 1.0

/-- The factor between distances in the visible area and in the field. -/
def coordinateScale (s : FlowSettings) : Float := s.baseScale / s.zoomFactor

def organicOctaves : List Octave :=
  [⟨0.002, 0.8, 0.05, 0.0⟩, ⟨0.006, 0.4, 0.15, 100.0⟩, ⟨0.015, 0.15, 0.4, 200.0⟩]

def standard : FlowSettings where
  baseScale := 0.005
  zoom := neutralZoom
  baseBound := 10.0
  bound := 60.0
  drift := Vec.zero
  octaves := organicOctaves
  noiseGain := 1.0
  waves := ⟨0.01, 0.5, 0.3⟩
  breathe := ⟨0.4, 1.0, 0.15⟩
  activity := ⟨0.6, 1.0, 0.1⟩
  activityGain := 8.0
  intensity := 4.0
  pointer := ⟨1.0, 0.0005, 2.0, 0.3⟩

def still (s : FlowSettings) : FlowSettings :=
  { s with
    octaves := []
    waves := { s.waves with amplitude := 0.0 }
    breathe := .fixed 1.0
    activity := .fixed 1.0
    activityGain := 1.0 }

def unperturbed : FlowSettings :=
  { standard.still with
    drift := Vec.zero
    intensity := 1.0
    pointer := { standard.pointer with influence := 0.0 } }

end FlowSettings

end DriftField
