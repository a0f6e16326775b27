import DriftField.Scalar.Remainder
import DriftField.Scalar.Rounding
import DriftField.Vec
/-!
Scalar expressions over a point of the plane: their trees, values and measures.
-/

namespace DriftField

inductive Coordinate where
  | x
  | y
  deriving DecidableEq, Repr

inductive Unary where
  | sin
  | cos
  | tan
  | log
  | sqrt
  | abs
  | sign
  | round
  deriving DecidableEq, Repr

inductive Choice where
  | min
  | max
  deriving DecidableEq, Repr

inductive Operator where
  | add
  | sub
  | mul
  | div
  | rem
  | eq
  deriving DecidableEq, Repr

inductive Expr where
  | literal (v : Float)
  | coordinate (c : Coordinate)
  | call (f : Unary) (a : Expr)
  | choose (f : Choice) (a b : Expr)
  | binary (op : Operator) (a b : Expr)
  | ifThen (c a b : Expr)

def Unary.name : Unary → String
  | .sin => "sin"
  | .cos => "cos"
  | .tan => "tan"
  | .log => "log"
  | .sqrt => "sqrt"
  | .abs => "abs"
  | .sign => "sign"
  | .round => "round"

def Unary.all : List Unary := [.sin, .cos, .tan, .log, .sqrt, .abs, .sign, .round]

def Unary.ofName? (name : String) : Option Unary := Unary.all.find? (·.name == name)

/-- The value of a function. The sign of zero is that zero, and the sign of no number is no number. -/
def Unary.apply (f : Unary) (v : Float) : Float :=
  match f with
  | .sin => v.sin
  | .cos => v.cos
  | .tan => v.tan
  | .log => v.log
  | .sqrt => v.sqrt
  | .abs => v.abs
  | .sign => if v.isNaN || v == 0.0 then v else Scalar.withSignOf v 1.0
  | .round => Scalar.roundUp v

def Choice.name : Choice → String
  | .min => "min"
  | .max => "max"

def Choice.all : List Choice := [.min, .max]

def Choice.ofName? (name : String) : Option Choice := Choice.all.find? (·.name == name)

def Choice.apply (f : Choice) (a b : Float) : Float :=
  if a.isNaN || b.isNaN then Scalar.nan
  else match f with
    | .min => Scalar.lesser a b
    | .max => Scalar.greater a b

def Operator.symbol : Operator → String
  | .add => "+"
  | .sub => "-"
  | .mul => "*"
  | .div => "/"
  | .rem => "%"
  | .eq => "=="

/-- The value of an operator. A comparison that holds is one, else it is zero. -/
def Operator.apply (op : Operator) (a b : Float) : Float :=
  match op with
  | .add => a + b
  | .sub => a - b
  | .mul => a * b
  | .div => a / b
  | .rem => Scalar.remainder a b
  | .eq => if a == b then 1.0 else 0.0

namespace Expr

def x : Expr := .coordinate .x

def y : Expr := .coordinate .y

/-- Whether a condition holds: it does unless it is zero or no number. -/
def holds (v : Float) : Bool := v != 0.0 && !v.isNaN

def eval (p : Vec) : Expr → Float
  | .literal v => v
  | .coordinate .x => p.x
  | .coordinate .y => p.y
  | .call f a => f.apply (a.eval p)
  | .choose f a b => f.apply (a.eval p) (b.eval p)
  | .binary op a b => op.apply (a.eval p) (b.eval p)
  | .ifThen c a b => if holds (c.eval p) then a.eval p else b.eval p

def size : Expr → Nat
  | .literal _ | .coordinate _ => 1
  | .call _ a => 1 + a.size
  | .choose _ a b | .binary _ a b => 1 + a.size + b.size
  | .ifThen c a b => 1 + c.size + a.size + b.size

def depth : Expr → Nat
  | .literal _ | .coordinate _ => 1
  | .call _ a => 1 + a.depth
  | .choose _ a b | .binary _ a b => 1 + max a.depth b.depth
  | .ifThen c a b => 1 + max (max c.depth a.depth) b.depth

def literalsFinite : Expr → Bool
  | .literal v => Scalar.isFinite v
  | .coordinate _ => true
  | .call _ a => a.literalsFinite
  | .choose _ a b | .binary _ a b => a.literalsFinite && b.literalsFinite
  | .ifThen c a b => c.literalsFinite && a.literalsFinite && b.literalsFinite

/-- Same shape, and literals that compare equal as numbers: the two zeros are equal, and a NaN differs
from itself. -/
def same : Expr → Expr → Bool
  | .literal v, .literal w => v == w
  | .coordinate c, .coordinate d => c == d
  | .call f a, .call g b => f == g && same a b
  | .choose f a b, .choose g c d => f == g && same a c && same b d
  | .binary f a b, .binary g c d => f == g && same a c && same b d
  | .ifThen a b c, .ifThen d e f => same a d && same b e && same c f
  | _, _ => false

instance : BEq Expr := ⟨same⟩

def greatestDepth : Nat := 128

end Expr

end DriftField
