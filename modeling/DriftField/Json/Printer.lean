import DriftField.Json.Value
import DriftField.Decimal.Text
import DriftField.Text.Number
/-!
Writing JSON: on one line, or with one member a line and two blanks of indentation per level.
-/

namespace DriftField.Json

/-- A character inside a quoted text. Quotes, backslashes and control characters are escaped. -/
def escaped (c : Char) : List Char :=
  if c = '"' then ['\\', '"']
  else if c = '\\' then ['\\', '\\']
  else if c = '\n' then ['\\', 'n']
  else if c = '\r' then ['\\', 'r']
  else if c = '\t' then ['\\', 't']
  else if c = '\x08' then ['\\', 'b']
  else if c = '\x0c' then ['\\', 'f']
  else if c.toNat < 0x20 then
    ['\\', 'u', '0', '0', Text.hexDigit (c.toNat / 16), Text.hexDigit c.toNat]
  else [c]

def quoted (s : String) : List Char := '"' :: s.toList.flatMap escaped ++ ['"']

def wholeText (n : Int) : List Char :=
  if n < 0 then '-' :: Decimal.digits n.natAbs else Decimal.digits n.natAbs

def scalarText : Json → List Char
  | .null => "null".toList
  | .boolean b => (if b then "true" else "false").toList
  | .whole n => wholeText n
  | .fraction v => Decimal.dataText v
  | .text s => quoted s
  | .list _ | .object _ => []

def lineBreak (depth : Nat) : List Char := '\n' :: List.replicate (2 * depth) ' '

mutual

def pretty (depth : Nat) : Json → List Char
  | .list [] => ['[', ']']
  | .list (item :: items) =>
      '[' :: lineBreak (depth + 1) ++ pretty (depth + 1) item ++ prettyItems depth items
  | .object [] => ['{', '}']
  | .object ((name, value) :: members) =>
      '{' :: lineBreak (depth + 1) ++ quoted name ++ ':' :: ' ' :: pretty (depth + 1) value
        ++ prettyMembers depth members
  | other => scalarText other

def prettyItems (depth : Nat) : List Json → List Char
  | [] => lineBreak depth ++ [']']
  | item :: items =>
      ',' :: lineBreak (depth + 1) ++ pretty (depth + 1) item ++ prettyItems depth items

def prettyMembers (depth : Nat) : List (String × Json) → List Char
  | [] => lineBreak depth ++ ['}']
  | (name, value) :: members =>
      ',' :: lineBreak (depth + 1) ++ quoted name ++ ':' :: ' ' :: pretty (depth + 1) value
        ++ prettyMembers depth members

end

mutual

def compact : Json → List Char
  | .list [] => ['[', ']']
  | .list (item :: items) => '[' :: compact item ++ compactItems items
  | .object [] => ['{', '}']
  | .object ((name, value) :: members) =>
      '{' :: quoted name ++ ':' :: compact value ++ compactMembers members
  | other => scalarText other

def compactItems : List Json → List Char
  | [] => [']']
  | item :: items => ',' :: compact item ++ compactItems items

def compactMembers : List (String × Json) → List Char
  | [] => ['}']
  | (name, value) :: members =>
      ',' :: quoted name ++ ':' :: compact value ++ compactMembers members

end

def prettyText (value : Json) : String := String.ofList (pretty 0 value)

def compactText (value : Json) : String := String.ofList (compact value)

end DriftField.Json
