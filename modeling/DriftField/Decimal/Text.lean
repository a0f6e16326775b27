import DriftField.Decimal.Shortest
/-!
Decimal notation: digits of a whole number, positional notation without an exponent, and the notation
of data files, which turns to an exponent for very large and very small numbers.
-/

namespace DriftField.Decimal

def digits (n : Nat) : List Char := Nat.toDigits 10 n

/-- A decimal number in positional notation: zeros fill the places between its digits and the point, and
there is no point when there are no places after it. -/
def positional (d : Decimal) : List Char :=
  let ds := digits d.coefficient
  match d.exponent with
  | .ofNat n => if d.coefficient = 0 then ds else ds ++ List.replicate n '0'
  | .negSucc n =>
      let places := n + 1
      let padded := List.replicate (places + 1 - ds.length) '0' ++ ds
      padded.take (padded.length - places) ++ '.' :: padded.drop (padded.length - places)

def signed (v : Float) (magnitude : List Char) : List Char :=
  if Scalar.isNegative v then '-' :: magnitude else magnitude

/-- The plain text of a number: its shortest decimal form in positional notation. -/
def plain (v : Float) : List Char :=
  if v.isNaN then ['N', 'a', 'N']
  else signed v <|
    if Scalar.isFinite v then positional (shortest .upward v.abs) else ['i', 'n', 'f']

def leadingExponent (d : Decimal) : Int := d.exponent + (digits d.coefficient).length - 1

def scientific (d : Decimal) : List Char :=
  let e := leadingExponent d
  let mantissa := match digits d.coefficient with
    | [] => []
    | [c] => [c]
    | c :: rest => c :: '.' :: rest
  mantissa ++ 'e' :: (if e < 0 then '-' else '+') :: digits e.natAbs

def isNearPoint (e : Int) : Bool := -5 ≤ e && e ≤ 15

/-- A finite number as data files write it: always with a fraction part or an exponent, so that it is
not taken for an integer. -/
def dataText (v : Float) : List Char :=
  let d := shortest .toEven v.abs
  signed v <|
    if isNearPoint (leadingExponent d) then
      match d.exponent with
      | .ofNat _ => positional d ++ ['.', '0']
      | .negSucc _ => positional d
    else scientific d

def plainString (v : Float) : String := String.ofList (plain v)

end DriftField.Decimal
