import DriftField.Grammar.Weights
import DriftField.Expr.Source
/-!
Random expressions. A rule is drawn, then its parts are built in the same way. While they are, the weight
of the rule's category is damped, so that an expression becomes ever more likely to end.
-/

namespace DriftField

namespace Synthesis

variable {α : Type} [Weighing α]

/-- Why no expression was built: the probabilities selected no rule, or the expression went on beyond
the given nesting. -/
inductive Failure (α : Type) where
  | exhausted (mass : α)
  | unfinished

/-- The weights in force, and the stream that is drawn from. -/
structure State (α : Type) where
  weights : Weights α
  stream : Stream

/-- A computation that draws rules. Weights and stream are kept also when it fails. -/
abbrev Build (α : Type) := ExceptT (Failure α) (StateM (State α))

def damping : α := 0.25

def unit : Build α α := do
  let s ← get
  let (w, stream) := Draw.word s.stream
  set { s with stream }
  return Weighing.unitOfWord w

/-- Runs a computation with the weight of a category damped, and then gives it its former weight. -/
def damped {β : Type} (c : Category) (body : Build α β) : Build α β := do
  let saved := (← get).weights.get c
  modify fun s => { s with weights := s.weights.set c (saved * damping) }
  let result ← ExceptT.lift body.run
  modify fun s => { s with weights := s.weights.set c saved }
  match result with
  | .ok b => return b
  | .error e => throw e

def drawRule (rules : List Rule) : Build α Rule := do
  let w := (← get).weights
  let u ← unit
  match Weights.select (w.probabilities rules) u with
  | .ok i => return rules.get (i.cast (by simp))
  | .error mass => throw (.exhausted mass)

/-- Draws an expression in which at most `nesting` rules enclose one another. -/
def expand (rules : List Rule) : (nesting : Nat) → Build α Expr
  | 0 => throw .unfinished
  | nesting + 1 => do
      let rule ← drawRule rules
      match rule.production with
      | .terminal e => return e
      | .unary build => build <$> damped rule.category (expand rules nesting)
      | .binary build =>
          damped rule.category do
            let a ← expand rules nesting
            let b ← expand rules nesting
            return build a b

/-- The nesting beyond which an expression is given up. Damping makes far less than this almost
certain. -/
def greatestNesting : Nat := 1000000

def components (rules : List Rule) : Build α Components := do
  let x ← expand rules greatestNesting
  let y ← expand rules greatestNesting
  return ⟨x, y⟩

def start {β : Type} (build : Build α β) : Draw (Except (Failure α) β) := fun stream =>
  let (result, s) := build.run ⟨Weights.base, stream⟩
  (result, s.stream)

def synthesize (grammar : Grammar) : Draw (Except (Failure Float) Components) :=
  start (components grammar.rules)

end Synthesis

end DriftField
