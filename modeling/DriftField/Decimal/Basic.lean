import DriftField.Scalar.Order
/-!
Decimal numbers and the binary64 number nearest to each. The nearest number is found in whole units of
`2 ^ -1074`; of two equally near ones it is the one with an even significand.
-/

namespace DriftField

/-- The number `coefficient * 10 ^ exponent`. -/
structure Decimal where
  coefficient : Nat
  exponent : Int
  deriving DecidableEq, Repr

namespace Decimal

abbrev power (base exponent : Nat) : Nat := Nat.pow base exponent

def infinityBits : Nat := 0x7ff0000000000000

/-- The bits of the binary64 number nearest to `num / den`. The quotient in units is cut to 53 bits and
rounded; a carry out of the significand is a carry into the exponent, so the sum of both parts is right
in every case. -/
def nearestBits (num den : Nat) : Nat :=
  let units := num <<< 1074
  let e := (units / den).log2 - 52
  let unit := den <<< e
  let q := units / unit
  let r := 2 * (units % unit)
  let rounded := if unit < r || (r == unit && q % 2 == 1) then q + 1 else q
  min ((e <<< 52) + rounded) infinityBits

def nearest (num den : Nat) : Float := Float.ofBits (nearestBits num den).toUInt64

/-- Magnitudes of at least `10 ^ 400` and below `10 ^ -400` lie far outside the range of binary64, and
are settled without computing the power. -/
def farExponent : Nat := 400

def toFloat (d : Decimal) : Float :=
  if d.coefficient = 0 then 0.0
  else match d.exponent with
    | .ofNat n =>
        if farExponent < n then Scalar.infinity else nearest (d.coefficient * power 10 n) 1
    | .negSucc n =>
        if farExponent + d.coefficient.log2 < n then 0.0 else nearest d.coefficient (power 10 (n + 1))

end Decimal

end DriftField
