import DriftField.Settings.Basic
/-!
Named settings.
-/

namespace DriftField

inductive Preset where
  | classic
  | organic
  | calm
  | storm
  | streamlines
  | field
  deriving DecidableEq, Repr

namespace Preset

def all : List Preset := [.classic, .organic, .calm, .storm, .streamlines, .field]

def name : Preset → String
  | .classic => "classic"
  | .organic => "organic"
  | .calm => "calm"
  | .storm => "storm"
  | .streamlines => "streamlines"
  | .field => "field"

def ofName? (name : String) : Option Preset := all.find? (·.name == name)

def settings : Preset → Settings
  | .classic =>
      { Settings.standard with
        swarm := { SwarmSettings.standard with trailLength := 3 }
        flow := { FlowSettings.standard.still with drift := ⟨1.0, 1.0⟩ } }
  | .organic => .standard
  | .calm =>
      { Settings.standard with
        swarm := { SwarmSettings.standard with count := 600, trailLength := 8, speed := ⟨0.4, 1.5⟩ }
        flow :=
          { FlowSettings.standard with
            intensity := 2.0
            noiseGain := 0.5
            waves := { FlowSettings.standard.waves with amplitude := 0.15 }
            pointer := { FlowSettings.standard.pointer with influence := 0.5 } }
        persistence := 0.98 }
  | .storm =>
      { Settings.standard with
        swarm := { SwarmSettings.standard with count := 2500, trailLength := 4, speed := ⟨1.0, 3.5⟩ }
        flow :=
          { FlowSettings.standard with
            intensity := 8.0
            noiseGain := 2.0
            waves := { FlowSettings.standard.waves with amplitude := 0.8 }
            pointer := { FlowSettings.standard.pointer with influence := 2.0 } }
        persistence := 0.85 }
  | .streamlines =>
      { Settings.standard with
        swarm :=
          { SwarmSettings.standard with
            count := 200
            trailLength := 60
            trailAge := 6000.0
            decay := 0.0002 }
        flow := { FlowSettings.standard with intensity := 3.0, noiseGain := 0.3 } }
  | .field =>
      { Settings.standard with
        swarm := { SwarmSettings.standard with count := 0 }
        flow := .unperturbed
        showField := true }

end Preset

end DriftField
