import DriftField.Settings.Parameter
/-!
Overriding setting by setting: each of the settings that a viewer may tune is read under its name and brought within
bounds that stand here, apart from those in the schema.
-/

namespace DriftField.Settings

def strategyIn (params : Json) (s : Settings) : Except ParameterFault Strategy :=
  let name := Parameters.text params "strategy" s.strategy.name
  match Strategy.ofName? name with
  | some strategy => .ok strategy
  | none => .error ⟨"strategy", "function|noise|noisy_function|random", name⟩

def tunedEach (s : Settings) (params : Json) (strategy : Strategy) : Settings :=
  { s with
    strategy
    showField := Parameters.boolean params "show_field" s.showField
    persistence := Scalar.within 0.0 1.0 (Parameters.float params "decay" s.persistence)
    swarm := { s.swarm with
      count := min (Parameters.natural params "particle_count" s.swarm.count) 20000
      trailLength := min (Parameters.natural params "trail_length" s.swarm.trailLength) 500
      trailAge := Parameters.floatWithin params "trail_max_age_ms" s.swarm.trailAge 0.0 60000.0 }
    flow := { s.flow with
      intensity := Scalar.within 0.0 20.0 (Parameters.float params "flow_intensity" s.flow.intensity)
      zoom := Scalar.within 0.1 50.0 (Parameters.float params "scale" s.flow.zoom)
      pointer := { s.flow.pointer with
        influence := Parameters.floatWithin params "pointer_influence" s.flow.pointer.influence 0.0 10.0 }
      noiseGain := Parameters.floatWithin params "noise_gain" s.flow.noiseGain 0.0 10.0
      waves := { s.flow.waves with
        amplitude := Parameters.floatWithin params "wave_amplitude" s.flow.waves.amplitude 0.0 10.0 }
      drift := ⟨Parameters.floatWithin params "drift_x" s.flow.drift.x (-10.0) 10.0,
        Parameters.floatWithin params "drift_y" s.flow.drift.y (-10.0) 10.0⟩ } }

def overrideEach (s : Settings) (params : Json) : Except ParameterFault Settings := do
  Parameters.check s.schema params
  let strategy ← strategyIn params s
  return s.tunedEach params strategy

def withShareEach (s : Settings) (share : Share) : Settings :=
  { s with
    swarm := { s.swarm with count := min share.count 20000 }
    flow := { s.flow with
      intensity := Scalar.within 0.0 20.0 share.flow
      zoom := Scalar.within 0.1 50.0 share.scale }
    persistence := Scalar.within 0.0 1.0 share.decay }

end DriftField.Settings
