import DriftField.Text.Visible
/-!
Text between double quotes, in which every character can be seen.
-/

namespace DriftField.Text

def escaped (c : Char) : List Char :=
  if c = '"' || c = '\\' then ['\\', c]
  else if c = '\n' then ['\\', 'n']
  else if c = '\r' then ['\\', 'r']
  else if c = '\t' then ['\\', 't']
  else if c = '\x00' then ['\\', '0']
  else if isVisible c then [c]
  else ['\\', 'u', '{'] ++ Nat.toDigits 16 c.toNat ++ ['}']

def quoted (text : List Char) : List Char := '"' :: text.flatMap escaped ++ ['"']

end DriftField.Text
