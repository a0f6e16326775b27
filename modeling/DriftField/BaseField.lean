import DriftField.Grammar.Synthesis
import DriftField.Noise.Field
import DriftField.Settings.Basic
/-!
Base fields, and how a seed determines one.
-/

namespace DriftField

inductive BaseField where
  | function (f : FormulaField)
  | noise (n : NoiseField)
  | noisyFunction (n : NoiseField) (f : FormulaField)

namespace BaseField

def sample (p : Vec) : BaseField → Except SampleFault Vec
  | .function f => f.sample p
  | .noise n => .ok (n.sample p)
  | .noisyFunction n f => (n.sample p * ·) <$> f.sample p

def source? : BaseField → Option String
  | .function f => some f.source
  | .noise _ | .noisyFunction _ _ => none

def kind : BaseField → Strategy
  | .function _ => .function
  | .noise _ => .noise
  | .noisyFunction _ _ => .noisyFunction

abbrev Generation := ExceptT (Synthesis.Failure Float) Draw

/-- Draws the formula of a field; `none` when its expressions are not sound. -/
def formula : Generation (Option FormulaField) := FormulaField.of? <$> Synthesis.synthesize .full

def generateFunction : Generation (Option BaseField) := do
  let f ← formula
  return f.map .function

def generateNoise : Generation (Option BaseField) := do
  let n ← ExceptT.lift NoiseField.random
  return some (.noise n)

def generateNoisyFunction : Generation (Option BaseField) := do
  let n ← ExceptT.lift NoiseField.random
  let f ← formula
  return f.map (.noisyFunction n)

def generate : Strategy → Generation (Option BaseField)
  | .function => generateFunction
  | .noise => generateNoise
  | .noisyFunction => generateNoisyFunction
  | .random => do
      let choice ← ExceptT.lift (Draw.index 3 (by decide))
      if choice = 0 then generateNoise
      else if choice = 1 then generateFunction
      else generateNoisyFunction

end BaseField

end DriftField
