import DriftField.Decimal.Basic
import DriftField.Scalar.Parts
/-!
The shortest decimal number that reads back as a given binary64 number. Ever finer decimal grids are
tried; on each, only the two grid points around the number can be the answer.
-/

namespace DriftField.Decimal

/-- Which of two equally near decimal numbers is written. -/
inductive Tie where
  | upward
  | toEven
  deriving DecidableEq, Repr

/-- Of the neighbours `c` and `c + 1` of a number that lies `r / span` above `c`, the one to write when
both would do. -/
def Tie.choose (tie : Tie) (c r span : Nat) : Nat :=
  if 2 * r < span then c
  else if span < 2 * r then c + 1
  else match tie with
    | .upward => c + 1
    | .toEven => if c % 2 = 0 then c else c + 1

/-- The decimal number on the grid `10 ^ p` that is written for `v`, if one reads back as `v`. -/
def onGrid? (tie : Tie) (v : Float) (p : Int) : Option Decimal :=
  let num := Scalar.units v * power 10 (-p).toNat
  let den := power 10 p.toNat <<< 1074
  let c := num / den
  let below := toFloat ⟨c, p⟩ == v
  let above := toFloat ⟨c + 1, p⟩ == v
  match below, above with
  | true, true => some ⟨tie.choose c (num % den) den, p⟩
  | true, false => some ⟨c, p⟩
  | false, true => some ⟨c + 1, p⟩
  | false, false => none

/-- The finite magnitude `v` written in full: a number of units of `2 ^ -1074` is that many units of
`5 ^ 1074 * 10 ^ -1074`. -/
def exact (v : Float) : Decimal :=
  let e := 1074 - min 1074 (Scalar.scale v)
  ⟨(Scalar.significand v <<< (Scalar.scale v - 1074)) * power 5 e, -(e : Int)⟩

/-- Tries the grids `10 ^ p`, `10 ^ (p - 1)`, … in turn. A number that none of them reaches is written
in full. -/
def firstOnGrid (tie : Tie) (v : Float) (p : Int) : Nat → Decimal
  | 0 => exact v
  | tries + 1 => (onGrid? tie v p).getD (firstOnGrid tie v (p - 1) tries)

/-- An exponent `p` such that `v` is below `10 ^ (p + 1)`. The factor is a little above the decimal
logarithm of two. -/
def gridAbove (v : Float) : Int :=
  ((Scalar.units v).log2 - 1074 : Int) * 30103 / 100000 + 1

/-- The decimal number with the fewest digits that reads back as the finite positive `v`, and of those
the nearest to it. -/
def shortest (tie : Tie) (v : Float) : Decimal :=
  if v == 0.0 then ⟨0, 0⟩ else firstOnGrid tie v (gridAbove v) 20

end DriftField.Decimal
