import DriftField.Expr.Basic
import DriftField.Text.Blank
import DriftField.Text.Number
/-!
The tokens of expression text, each with its place: the number of bytes before it.
-/

namespace DriftField

inductive SourceCause where
  | loneEquals
  | badNumber (literal : String)
  | hugeNumber (literal : String)
  | strayCharacter (c : Char)
  | tooDeep
  | missing (mark : String)
  | noOperand
  | endOfText
  | unknownName (name : String)
  | trailingText
  | noComponent
  | unknownComponent (name : String)
  | assignedTwice
  | unassigned (component : String)
  deriving DecidableEq

def SourceCause.message : SourceCause → String
  | .loneEquals => "expected '=='"
  | .badNumber literal => s!"invalid number '{literal}'"
  | .hugeNumber literal => s!"number out of range '{literal}'"
  | .strayCharacter c => s!"unexpected character '{c}'"
  | .tooDeep => "nesting too deep"
  | .missing mark => s!"expected '{mark}'"
  | .noOperand => "expected an operand"
  | .endOfText => "unexpected end of expression"
  | .unknownName name => s!"unknown name '{name}'"
  | .trailingText => "unexpected trailing input"
  | .noComponent => "expected 'dx = ...' or 'dy = ...'"
  | .unknownComponent name => s!"unknown component '{name}'"
  | .assignedTwice => "component assigned twice"
  | .unassigned component => s!"missing '{component}' line"

structure SourceError where
  offset : Nat
  cause : SourceCause
  deriving DecidableEq

namespace Expr

/-- Marks that are no operators. -/
inductive Mark where
  | question
  | colon
  | comma
  | openParen
  | closeParen
  deriving DecidableEq

def Mark.spelling : Mark → String
  | .question => "?"
  | .colon => ":"
  | .comma => ","
  | .openParen => "("
  | .closeParen => ")"

inductive Token where
  | number (v : Float)
  | name (s : String)
  | operator (op : Operator)
  | mark (m : Mark)

structure Placed where
  offset : Nat
  token : Token

def single? (c : Char) : Option Token :=
  if c = '+' then some (.operator .add)
  else if c = '-' then some (.operator .sub)
  else if c = '*' then some (.operator .mul)
  else if c = '/' then some (.operator .div)
  else if c = '%' then some (.operator .rem)
  else if c = '?' then some (.mark .question)
  else if c = ':' then some (.mark .colon)
  else if c = ',' then some (.mark .comma)
  else if c = '(' then some (.mark .openParen)
  else if c = ')' then some (.mark .closeParen)
  else none

/-- The characters passed over between tokens. -/
def isGap (c : Char) : Bool := c = ' ' || c = '\t' || c = '\r'

/-- Whether a number may start with `c`; digits and points also continue it. -/
def isNumeric (c : Char) : Bool := Text.isDigit c || c = '.'

def isNameStart (c : Char) : Bool := c.isAlpha || c = '_'

def isNamePart (c : Char) : Bool := c.isAlphanum || c = '_'

/-- The exponent at the start of a text, if a complete one stands there: the letter, an optional sign,
and digits. -/
def exponent : List Char → List Char
  | letter :: sign :: rest =>
      if letter = 'e' || letter = 'E' then
        if sign = '+' || sign = '-' then
          match rest.takeWhile Text.isDigit with
          | [] => []
          | ds => letter :: sign :: ds
        else
          match (sign :: rest).takeWhile Text.isDigit with
          | [] => []
          | ds => letter :: ds
      else []
  | _ => []

/-- The spelling of the number at the start of a text: digits and points, then an exponent. -/
def numeral (cs : List Char) : List Char :=
  cs.takeWhile isNumeric ++ exponent (cs.dropWhile isNumeric)

def valueOf (spelling : List Char) : Except SourceCause Float :=
  match Text.number? spelling with
  | none => .error (.badNumber (String.ofList spelling))
  | some v =>
      if Scalar.isFinite v then .ok v else .error (.hugeNumber (String.ofList spelling))

theorem length_takeWhile_pos {p : Char → Bool} {c : Char} (rest : List Char) (h : p c = true) :
    0 < ((c :: rest).takeWhile p).length := by
  simp [h]

theorem length_numeral_pos {c : Char} (rest : List Char) (h : isNumeric c = true) :
    0 < (numeral (c :: rest)).length := by
  have := length_takeWhile_pos rest h
  simp only [numeral, List.length_append]
  omega

/-- Splits text into tokens. The first byte of the text counts as byte `offset`. -/
def tokens (offset : Nat) (cs : List Char) : Except SourceError (List Placed) :=
  match cs with
  | [] => .ok []
  | c :: rest =>
      if isGap c then tokens (offset + 1) rest
      else match single? c with
      | some token => (tokens (offset + 1) rest).map (⟨offset, token⟩ :: ·)
      | none =>
        if c = '=' then
          match rest with
          | '=' :: rest => (tokens (offset + 2) rest).map (⟨offset, .operator .eq⟩ :: ·)
          | _ => .error ⟨offset, .loneEquals⟩
        else if h : isNumeric c = true then
          let spelling := numeral (c :: rest)
          have := length_numeral_pos rest h
          match valueOf spelling with
          | .error cause => .error ⟨offset, cause⟩
          | .ok v =>
              (tokens (offset + spelling.length) ((c :: rest).drop spelling.length)).map
                (⟨offset, .number v⟩ :: ·)
        else if isNameStart c then
          let name := c :: rest.takeWhile isNamePart
          (tokens (offset + name.length) ((c :: rest).drop name.length)).map
            (⟨offset, .name (String.ofList name)⟩ :: ·)
        else .error ⟨offset, .strayCharacter c⟩
termination_by cs.length
decreasing_by
  all_goals simp_all +zetaDelta
  all_goals omega

end Expr

end DriftField
