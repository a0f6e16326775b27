import DriftField.Settings.Flow
import DriftField.Settings.Swarm
/-!
All settings of a simulation together.
-/

namespace DriftField

inductive Strategy where
  /-- A field of two random expressions. -/
  | function
  /-- Noise that gives a direction. -/
  | noise
  /-- The product of the two. -/
  | noisyFunction
  /-- One of the three, drawn by the seed. -/
  | random
  deriving DecidableEq, Repr

namespace Strategy

def all : List Strategy := [.function, .noise, .noisyFunction, .random]

def name : Strategy → String
  | .function => "function"
  | .noise => "noise"
  | .noisyFunction => "noisy_function"
  | .random => "random"

def ofName? (name : String) : Option Strategy := all.find? (·.name == name)

end Strategy

structure Settings where
  swarm : SwarmSettings
  flow : FlowSettings
  strategy : Strategy
  /-- The part of a picture that remains in the next one. -/
  persistence : Float
  /-- Whether arrows of the field are drawn over the picture. -/
  showField : Bool

def Settings.standard : Settings where
  swarm := .standard
  flow := .standard
  strategy := .function
  persistence := 0.95
  showField := false

end DriftField
