import DriftField.Decimal.Basic
/-!
Reading numbers from text: unsigned whole numbers that fit in a machine word, and decimal fractions.
-/

namespace DriftField.Text

def digit? (c : Char) : Option Nat :=
  if '0' ≤ c && c ≤ '9' then some (c.toNat - '0'.toNat) else none

def isDigit (c : Char) : Bool := '0' ≤ c && c ≤ '9'

def hexValue? (c : Char) : Option Nat :=
  if '0' ≤ c && c ≤ '9' then some (c.toNat - '0'.toNat)
  else if 'a' ≤ c && c ≤ 'f' then some (c.toNat - 'a'.toNat + 10)
  else if 'A' ≤ c && c ≤ 'F' then some (c.toNat - 'A'.toNat + 10)
  else none

def hexDigit (n : Nat) : Char := Nat.digitChar (n % 16)

/-- The value of a run of decimal digits. A long run is halved time and again, which leaves few products
of long numbers. -/
def valueOfDigits (ds : List Char) : Nat := halving (ds.length.log2 - 4) ds
where
  halving : Nat → List Char → Nat
    | 0, ds => ds.foldl (fun n c => 10 * n + (c.toNat - '0'.toNat)) 0
    | depth + 1, ds =>
        let half := ds.length / 2
        let (high, low) := ds.splitAt (ds.length - half)
        halving depth high * Decimal.power 10 half + halving depth low

inductive WholeFault where
  | empty
  | badDigit
  | tooLarge
  deriving DecidableEq, Repr

def WholeFault.message : WholeFault → String
  | .empty => "cannot parse integer from empty string"
  | .badDigit => "invalid digit found in string"
  | .tooLarge => "number too large to fit in target type"

/-- Reads an unsigned number below `bound`: an optional plus sign and digits, nothing else. A digit that
is none is reported only when the digits before it still fit. -/
def whole (bound : Nat) (text : List Char) : Except WholeFault Nat :=
  match text with
  | [] => .error .empty
  | '+' :: c :: rest => accumulate 0 (c :: rest)
  | text => accumulate 0 text
where
  accumulate (n : Nat) : List Char → Except WholeFault Nat
    | [] => .ok n
    | c :: rest =>
        match digit? c with
        | none => .error .badDigit
        | some d => if bound ≤ 10 * n + d then .error .tooLarge else accumulate (10 * n + d) rest

def wordBound : Nat := UInt64.size

def word (text : List Char) : Except WholeFault Nat := whole wordBound text

/-- Digits of an exponent count as long as the number before them is below this. -/
def exponentLimit : Nat := 0x10000

def exponentOfDigits (ds : List Char) : Nat :=
  ds.foldl (fun n c => if n < exponentLimit then 10 * n + (c.toNat - '0'.toNat) else n) 0

def exponentPart? : List Char → Option Int
  | [] => some 0
  | letter :: rest =>
      if letter = 'e' || letter = 'E' then
        match rest with
        | '-' :: ds => (digitRun? ds).map fun n => -(n : Int)
        | '+' :: ds => (digitRun? ds).map Int.ofNat
        | ds => (digitRun? ds).map Int.ofNat
      else none
where
  digitRun? (ds : List Char) : Option Nat :=
    if ds ≠ [] && ds.all isDigit then some (exponentOfDigits ds) else none

/-- Reads an unsigned decimal fraction: digits with at most one point on either side of them or between
them, then an optional exponent. -/
def decimal? (text : List Char) : Option Decimal :=
  let (before, rest) := text.span isDigit
  let (after, rest) := match rest with
    | '.' :: more => more.span isDigit
    | rest => ([], rest)
  if before = [] && after = [] then none
  else (exponentPart? rest).map fun e => ⟨valueOfDigits (before ++ after), e - after.length⟩

/-- Reads the magnitude of a number: a decimal fraction, or one of the words for infinity and NaN in
either case. -/
def magnitude? (text : List Char) : Option Float :=
  match decimal? text with
  | some d => some d.toFloat
  | none =>
      let spelled := String.ofList (text.map Char.toLower)
      if spelled == "inf" || spelled == "infinity" then some Scalar.infinity
      else if spelled == "nan" then some Scalar.nan
      else none

def number? : List Char → Option Float
  | '-' :: rest => (magnitude? rest).map (- ·)
  | '+' :: rest => magnitude? rest
  | text => magnitude? text

def finite? (text : List Char) : Option Float := (number? text).filter Scalar.isFinite

end DriftField.Text
