import DriftField.Decimal.Text
import DriftField.Expr.Basic
/-!
The text of an expression, with parentheses only where precedence asks for them.
-/

namespace DriftField

/-- How strongly an operator binds its operands. All operators associate to the left. -/
def Operator.strength : Operator → Nat
  | .eq => 1
  | .add | .sub => 2
  | .mul | .div | .rem => 3

namespace Expr

def enclose (inside : Bool) (write : List Char → List Char) (rest : List Char) : List Char :=
  if inside then '(' :: write (')' :: rest) else write rest

/-- Writes an expression in front of `rest`, in parentheses when it binds less than `least`. The left
operand of an operator may bind as much as the operator, the right one must bind more. A conditional
binds less than every operator, and its parts bind at least as much as the weakest one. -/
def writeOnto (least : Nat) : Expr → List Char → List Char
  | .literal v, rest => Decimal.plain v ++ rest
  | .coordinate .x, rest => 'x' :: rest
  | .coordinate .y, rest => 'y' :: rest
  | .call f a, rest => f.name.toList ++ '(' :: writeOnto 0 a (')' :: rest)
  | .choose f a b, rest =>
      f.name.toList ++ '(' :: writeOnto 0 a (',' :: writeOnto 0 b (')' :: rest))
  | .binary op a b, rest =>
      enclose (op.strength < least)
        (fun rest =>
          writeOnto op.strength a (op.symbol.toList ++ writeOnto (op.strength + 1) b rest))
        rest
  | .ifThen c a b, rest =>
      enclose (0 < least)
        (fun rest =>
          writeOnto 1 c (' ' :: '?' :: ' ' :: writeOnto 1 a (' ' :: ':' :: ' ' :: writeOnto 1 b rest)))
        rest

def text (e : Expr) : String := String.ofList (writeOnto 0 e [])

end Expr

end DriftField
