import DriftField.Grammar.Rule
import DriftField.Scalar.Order
import DriftField.Stream
/-!
Weights of the rule categories, and the choice of a rule by a draw. The arithmetic is that of any
numbers that can be weighed; expressions are drawn with binary64 numbers.
-/

namespace DriftField

/-- Numbers that serve as weights: ordered, with arithmetic, and with a number in `[0, 1)` for every
random word. -/
class Weighing (α : Type) extends Add α, Sub α, Mul α, Div α, LT α, LE α, OfScientific α where
  unitOfWord : UInt64 → α
  decidableLT : DecidableLT α
  decidableLE : DecidableLE α

instance Weighing.instDecidableLT {α : Type} [Weighing α] : DecidableLT α := Weighing.decidableLT

instance Weighing.instDecidableLE {α : Type} [Weighing α] : DecidableLE α := Weighing.decidableLE

instance : Weighing Float where
  unitOfWord := Draw.unitOfWord
  decidableLT := inferInstance
  decidableLE := inferInstance

structure Weights (α : Type) where
  point : α
  length : α
  trigonometry : α
  arithmetic : α
  minMax : α
  exponential : α
  sign : α
  evenOdd : α

namespace Weights

variable {α : Type}

def get (w : Weights α) : Category → α
  | .point => w.point
  | .length => w.length
  | .trigonometry => w.trigonometry
  | .arithmetic => w.arithmetic
  | .minMax => w.minMax
  | .exponential => w.exponential
  | .sign => w.sign
  | .evenOdd => w.evenOdd

def set (w : Weights α) (c : Category) (v : α) : Weights α :=
  match c with
  | .point => { w with point := v }
  | .length => { w with length := v }
  | .trigonometry => { w with trigonometry := v }
  | .arithmetic => { w with arithmetic := v }
  | .minMax => { w with minMax := v }
  | .exponential => { w with exponential := v }
  | .sign => { w with sign := v }
  | .evenOdd => { w with evenOdd := v }

@[simp] theorem get_set (w : Weights α) (c d : Category) (v : α) :
    (w.set c v).get d = if c = d then v else w.get d := by
  cases c <;> cases d <;> rfl

@[ext] theorem ext_get {v w : Weights α} (h : ∀ c, v.get c = w.get c) : v = w := by
  cases v
  cases w
  have h₁ := h .point
  have h₂ := h .length
  have h₃ := h .trigonometry
  have h₄ := h .arithmetic
  have h₅ := h .minMax
  have h₆ := h .exponential
  have h₇ := h .sign
  have h₈ := h .evenOdd
  simp only [get] at h₁ h₂ h₃ h₄ h₅ h₆ h₇ h₈
  simp [*]

variable [Weighing α]

/-- The weights from which every expression starts. -/
def base : Weights α where
  point := 10.0
  length := 10.0 * 0.5
  trigonometry := 10.0 * 0.9
  arithmetic := 10.0 * 0.6
  minMax := 10.0 * 0.4
  exponential := 10.0 * 0.1
  sign := 10.0 * 0.01
  evenOdd := 10.0 * 0.3

def sum (vs : List α) : α := vs.foldl (· + ·) 0.0

/-- The probability of each rule: the weight of its category in proportion to the sum over all rules. -/
def probabilities (w : Weights α) (rules : List Rule) : List α :=
  let total := sum (rules.map fun r => w.get r.category)
  rules.map fun r => w.get r.category / total

@[simp] theorem length_probabilities (w : Weights α) (rules : List Rule) :
    (w.probabilities rules).length = rules.length := by
  simp [probabilities]

def tolerance : α := 1e-9

def isUnit (mass : α) : Bool := mass - 1.0 ≤ tolerance && 0.0 - (mass - 1.0) ≤ tolerance

/-- The first place at which the running sum, started at `total`, exceeds the threshold. -/
def walk (threshold : α) (total : α) : (ps : List α) → Option (Fin ps.length)
  | [] => none
  | p :: ps =>
      if threshold < total + p then some ⟨0, by simp⟩
      else (walk threshold (total + p) ps).map Fin.succ

/-- Chooses a place by a draw from `[0, 1)`: the first at which the running sum exceeds that part of the
whole. When the probabilities do not sum to one, or no place is reached, their sum is the error. -/
def select (ps : List α) (draw : α) : Except α (Fin ps.length) :=
  let mass := sum ps
  if isUnit mass then
    match walk (draw * mass) 0.0 ps with
    | some i => .ok i
    | none => .error mass
  else .error mass

end Weights

end DriftField
