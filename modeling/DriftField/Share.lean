import DriftField.Decimal.Text
import DriftField.Text.Blank
import DriftField.Text.Number
/-!
Share codes: the seed of a field and the four settings that a viewer tunes, as one short line of
comma-separated numbers.
-/

namespace DriftField

structure Share where
  seed : UInt64
  count : Nat
  flow : Float
  scale : Float
  decay : Float

inductive ShareFault where
  | empty
  | tooFewFields (n : Nat)
  | badSeed (field : String) (fault : Text.WholeFault)

def ShareFault.message : ShareFault → String
  | .empty => "empty"
  | .tooFewFields n => s!"expected 5 comma-separated fields, got {n}"
  | .badSeed field fault => s!"seed '{field}': {fault.message}"

namespace Share

/-- The share code of a seed alone: every setting has the value that also stands in for an unreadable
one. -/
def ofSeed (seed : UInt64) : Share := ⟨seed, 300, 4.0, 4.0, 0.95⟩

def encode (s : Share) : String :=
  String.ofList <| List.intercalate [',']
    [Decimal.digits s.seed.toNat, Decimal.digits s.count, Decimal.plain s.flow,
      Decimal.plain s.scale, Decimal.plain s.decay]

def seedOf (field : List Char) : Except ShareFault UInt64 :=
  match Text.word field with
  | .ok n => .ok n.toUInt64
  | .error fault => .error (.badSeed (String.ofList field) fault)

/-- The text without blanks around it and without one number sign at its start. -/
def body (text : String) : List Char :=
  match Text.trim text.toList with
  | '#' :: rest => rest
  | all => all

/-- Reads a share code: a seed alone, or at least five fields, of which only the seed has to be
readable. -/
def decode (text : String) : Except ShareFault Share :=
  let body := body text
  if body = [] then .error .empty
  else if ',' ∉ body then ofSeed <$> seedOf body
  else
    match (Text.pieces ',' body).map Text.trim with
    | seed :: count :: flow :: scale :: decay :: _ => do
        let s ← ofSeed <$> seedOf seed
        return { s with
          count := (Text.word count).toOption.getD s.count
          flow := (Text.finite? flow).getD s.flow
          scale := (Text.finite? scale).getD s.scale
          decay := (Text.finite? decay).getD s.decay }
    | fields => .error (.tooFewFields fields.length)

end Share

end DriftField
