import DriftField.Parameters
import DriftField.Settings.Basic
import DriftField.Share
/-!
The settings that a viewer may tune, as named parameters. Each parameter has a domain that bounds its
values and a place in the settings; values of all parameters, the schema, overriding and share codes
follow from the table of parameters.
-/

namespace DriftField

inductive Domain where
  | count (most : Nat)
  | number (low high : Float)
  | strategy
  | flag

namespace Domain

abbrev Value : Domain → Type
  | .count _ => Nat
  | .number _ _ => Float
  | .strategy => Strategy
  | .flag => Bool

def confine : (d : Domain) → d.Value → d.Value
  | .count most, n => min n most
  | .number low high, v => Scalar.within low high v
  | .strategy, s => s
  | .flag, b => b

def toJson : (d : Domain) → d.Value → Json
  | .count _, n => Json.ofNat n
  | .number _ _, v => Json.ofFloat v
  | .strategy, s => .text s.name
  | .flag, b => .boolean b

/-- The value that JSON stands for; it may lie outside the bounds. -/
def ofJson? : (d : Domain) → Json → Option d.Value
  | .count _, j => j.natural?
  | .number _ _, j => j.float?
  | .strategy, j => j.text?.bind Strategy.ofName?
  | .flag, j => j.boolean?

def typeName : Domain → String
  | .count _ => "integer"
  | .number _ _ => "number"
  | .strategy => "string"
  | .flag => "boolean"

def bounds : Domain → List (String × Json)
  | .count most => [("min", Json.ofNat 0), ("max", Json.ofNat most)]
  | .number low high => [("min", Json.ofFloat low), ("max", Json.ofFloat high)]
  | .strategy | .flag => []

end Domain

structure Parameter where
  name : String
  description : String
  domain : Domain
  get : Settings → domain.Value
  set : Settings → domain.Value → Settings

namespace Parameter

def put (p : Parameter) (v : p.domain.Value) (s : Settings) : Settings := p.set s (p.domain.confine v)

def apply (params : Json) (s : Settings) (p : Parameter) : Settings :=
  p.put (((params.member? p.name).bind p.domain.ofJson?).getD (p.get s)) s

def member (s : Settings) (p : Parameter) : String × Json := (p.name, p.domain.toJson (p.get s))

def entry (s : Settings) (p : Parameter) : String × Json :=
  (p.name, Json.record (
    ("type", .text p.domain.typeName) :: ("default", p.domain.toJson (p.get s))
      :: ("description", .text p.description) :: p.domain.bounds))

def particleCount : Parameter where
  name := "particle_count"
  description := "Target particle population"
  domain := .count 20000
  get s := s.swarm.count
  set s v := { s with swarm := { s.swarm with count := v } }

def trailLength : Parameter where
  name := "trail_length"
  description := "Maximum trail samples per particle"
  domain := .count 500
  get s := s.swarm.trailLength
  set s v := { s with swarm := { s.swarm with trailLength := v } }

def trailAge : Parameter where
  name := "trail_max_age_ms"
  description := "Trail samples older than this many milliseconds are dropped"
  domain := .number 0.0 60000.0
  get s := s.swarm.trailAge
  set s v := { s with swarm := { s.swarm with trailAge := v } }

def intensity : Parameter where
  name := "flow_intensity"
  description := "Multiplier on the final field vector"
  domain := .number 0.0 20.0
  get s := s.flow.intensity
  set s v := { s with flow := { s.flow with intensity := v } }

def zoom : Parameter where
  name := "scale"
  description := "Coordinate zoom; 5 is neutral"
  domain := .number 0.1 50.0
  get s := s.flow.zoom
  set s v := { s with flow := { s.flow with zoom := v } }

def persistence : Parameter where
  name := "decay"
  description := "Long-exposure decay"
  domain := .number 0.0 1.0
  get s := s.persistence
  set s v := { s with persistence := v }

def pointerInfluence : Parameter where
  name := "pointer_influence"
  description := "Strength of pointer attraction and swirl"
  domain := .number 0.0 10.0
  get s := s.flow.pointer.influence
  set s v := { s with flow := { s.flow with pointer := { s.flow.pointer with influence := v } } }

def noiseGain : Parameter where
  name := "noise_gain"
  description := "Multiplier on every noise octave amplitude"
  domain := .number 0.0 10.0
  get s := s.flow.noiseGain
  set s v := { s with flow := { s.flow with noiseGain := v } }

def waveAmplitude : Parameter where
  name := "wave_amplitude"
  description := "Amplitude of the periodic wave terms"
  domain := .number 0.0 10.0
  get s := s.flow.waves.amplitude
  set s v := { s with flow := { s.flow with waves := { s.flow.waves with amplitude := v } } }

def driftX : Parameter where
  name := "drift_x"
  description := "Constant horizontal drift"
  domain := .number (-10.0) 10.0
  get s := s.flow.drift.x
  set s v := { s with flow := { s.flow with drift := { s.flow.drift with x := v } } }

def driftY : Parameter where
  name := "drift_y"
  description := "Constant vertical drift"
  domain := .number (-10.0) 10.0
  get s := s.flow.drift.y
  set s v := { s with flow := { s.flow with drift := { s.flow.drift with y := v } } }

def strategy : Parameter where
  name := "strategy"
  description := "Base field kind: function, noise, noisy_function or random"
  domain := .strategy
  get s := s.strategy
  set s v := { s with strategy := v }

def showField : Parameter where
  name := "show_field"
  description := "Overlay field arrows"
  domain := .flag
  get s := s.showField
  set s v := { s with showField := v }

def all : List Parameter :=
  [particleCount, trailLength, trailAge, intensity, zoom, persistence, pointerInfluence, noiseGain,
    waveAmplitude, driftX, driftY, strategy, showField]

end Parameter

namespace Settings

def parameters (s : Settings) : Json := Json.record (Parameter.all.map (·.member s))

/-- The schema of the parameters: type, present value, bounds and description of each. -/
def schema (s : Settings) : Json := Json.record (Parameter.all.map (·.entry s))

def checkStrategy (params : Json) : Except ParameterFault Unit :=
  match (params.member? Parameter.strategy.name).bind Json.text? with
  | none => .ok ()
  | some name =>
      if (Strategy.ofName? name).isSome then .ok ()
      else .error ⟨Parameter.strategy.name, "|".intercalate (Strategy.all.map Strategy.name), name⟩

/-- The settings with every parameter brought within its bounds, and first set to its value in `params`
if it has one there. -/
def tuned (s : Settings) (params : Json) : Settings := Parameter.all.foldl (Parameter.apply params) s

/-- The settings with parameters overridden. A value of the wrong type and a strategy that is not known
are refused; names that are not known have no effect. -/
def override (s : Settings) (params : Json) : Except ParameterFault Settings := do
  Parameters.check s.schema params
  checkStrategy params
  return s.tuned params

def withShare (s : Settings) (share : Share) : Settings :=
  s |> Parameter.particleCount.put share.count
    |> Parameter.intensity.put share.flow
    |> Parameter.zoom.put share.scale
    |> Parameter.persistence.put share.decay

def share (s : Settings) (seed : UInt64) : Share :=
  ⟨seed, s.swarm.count, s.flow.intensity, s.flow.zoom, s.persistence⟩

end Settings

end DriftField
