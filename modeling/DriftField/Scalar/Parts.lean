/-!
A finite binary64 magnitude as a whole number: `significand v * 2 ^ scale v` units of `2 ^ -1074`.
-/

namespace DriftField.Scalar

def exponentField (v : Float) : Nat := (v.toBits >>> 52).toNat % 2048

def leadingBit : Nat := 1 <<< 52

/-- The 53-bit significand of a finite number, its leading bit made explicit. -/
def significand (v : Float) : Nat :=
  v.toBits.toNat % leadingBit + if exponentField v = 0 then 0 else leadingBit

/-- The power of two that scales the significand, counted from the least one. -/
def scale (v : Float) : Nat := exponentField v - 1

/-- The magnitude of a finite number in units of `2 ^ -1074`. -/
def units (v : Float) : Nat := significand v <<< scale v

/-- The bits of the number `n * 2 ^ e` units, where `n < 2 ^ 53`. A significand short of 53 bits is shifted
left as far as the scale allows; that of zero, all the way. -/
def bitsOfParts (n e : Nat) : UInt64 :=
  let shift := if n = 0 then e else min (52 - n.log2) e
  (((e - shift) <<< 52) + (n <<< shift)).toUInt64

def ofParts (n e : Nat) : Float := Float.ofBits (bitsOfParts n e)

end DriftField.Scalar
