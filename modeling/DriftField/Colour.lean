import DriftField.Scalar.Remainder
import DriftField.Scalar.Rounding
import DriftField.Stream
import DriftField.Text.Number
/-!
Colours of red, green and blue light: hexadecimal notation, conversion from hue, saturation and
lightness, blending, and the random colours of particles.
-/

namespace DriftField

/-- A colour. Each component lies in `[0, 1]`. -/
structure Colour where
  red : Float
  green : Float
  blue : Float

inductive ColourFault where
  | notSixDigits (text : String)
  | badDigit (component : String)

def ColourFault.message : ColourFault → String
  | .notSixDigits text => s!"expected 6 hex digits, got '{text}'"
  | .badDigit component => s!"invalid {component} component: invalid digit found in string"

namespace Colour

def background : Colour := ⟨8.0 / 255.0, 12.0 / 255.0, 20.0 / 255.0⟩

def white : Colour := ⟨1.0, 1.0, 1.0⟩

/-- The value of two hexadecimal digits; a plus sign may take the place of the first. -/
def byteOfDigits? (a b : Char) : Option Nat :=
  if a = '+' then Text.hexValue? b
  else do
    let a ← Text.hexValue? a
    let b ← Text.hexValue? b
    return 16 * a + b

def ofByte (n : Nat) : Float := n.toUInt64.toFloat / 255.0

def component (name : String) (a b : Char) : Except ColourFault Float :=
  match byteOfDigits? a b with
  | some n => .ok (ofByte n)
  | none => .error (.badDigit name)

/-- Reads a colour from six hexadecimal digits, with or without a number sign before them. -/
def ofHex (text : String) : Except ColourFault Colour :=
  let digits := match text.toList with
    | '#' :: rest => rest
    | all => all
  match digits with
  | [a, b, c, d, e, f] =>
      if digits.all fun c => c.toNat < 128 then do
        let red ← component "red" a b
        let green ← component "green" c d
        let blue ← component "blue" e f
        return ⟨red, green, blue⟩
      else .error (.notSixDigits (String.ofList digits))
  | _ => .error (.notSixDigits (String.ofList digits))

def byte (v : Float) : UInt8 := (Scalar.roundAway (Scalar.confine 0.0 1.0 v * 255.0)).toUInt8

def bytes (c : Colour) : List UInt8 := [byte c.red, byte c.green, byte c.blue]

def digitsOfByte (b : UInt8) : List Char := [Text.hexDigit (b.toNat / 16), Text.hexDigit b.toNat]

def digits (c : Colour) : List Char := c.bytes.flatMap digitsOfByte

def toHex (c : Colour) : String := String.ofList ('#' :: c.digits)

def componentOfHue (p q t : Float) : Float :=
  let t := Scalar.wrap t 1.0
  if t < 1.0 / 6.0 then p + (q - p) * 6.0 * t
  else if t < 0.5 then q
  else if t < 2.0 / 3.0 then p + (q - p) * (2.0 / 3.0 - t) * 6.0
  else p

/-- The colour of a hue in degrees, a saturation and a lightness. -/
def ofHsl (hue saturation lightness : Float) : Colour :=
  let h := Scalar.wrap hue 360.0 / 360.0
  let s := Scalar.confine 0.0 1.0 saturation
  let l := Scalar.confine 0.0 1.0 lightness
  if s == 0.0 then ⟨l, l, l⟩
  else
    let q := if l < 0.5 then l * (1.0 + s) else l + s - l * s
    let p := 2.0 * l - q
    ⟨componentOfHue p q (h + 1.0 / 3.0), componentOfHue p q h, componentOfHue p q (h - 1.0 / 3.0)⟩

/-- Draws a vivid colour: any hue, saturation and lightness each in its band of per cents. -/
def bright : Draw Colour := do
  let hue ← Draw.between 0.0 360.0
  let saturation ← Draw.between 30.0 60.0
  let lightness ← Draw.between 30.0 55.0
  return ofHsl hue (saturation / 100.0) (lightness / 100.0)

def blend (a b : Colour) (t : Float) : Colour :=
  let t := Scalar.confine 0.0 1.0 t
  ⟨a.red + (b.red - a.red) * t, a.green + (b.green - a.green) * t, a.blue + (b.blue - a.blue) * t⟩

end Colour

end DriftField
