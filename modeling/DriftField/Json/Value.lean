import DriftField.Dictionary
import DriftField.Scalar.Order
/-!
Values of the JSON data format. Whole numbers and fractions are told apart by how they are written.
-/

namespace DriftField

/-- A JSON value. The members of an object are kept in the order in which they are written. -/
inductive Json where
  | null
  | boolean (b : Bool)
  | whole (n : Int)
  | fraction (v : Float)
  | text (s : String)
  | list (items : List Json)
  | object (members : List (String × Json))

namespace Json

/-- A number as JSON: what is not finite has no form there and becomes `null`. -/
def ofFloat (v : Float) : Json := if Scalar.isFinite v then .fraction v else .null

def ofNat (n : Nat) : Json := .whole n

/-- An object with its members in increasing order of names. -/
def record (members : List (String × Json)) : Json := .object (Dictionary.ofPairs members)

def member? (name : String) : Json → Option Json
  | .object members => Dictionary.find? name members
  | _ => none

def float? : Json → Option Float
  | .whole n => some (Float.ofInt n)
  | .fraction v => some v
  | _ => none

def natural? : Json → Option Nat
  | .whole (.ofNat n) => some n
  | _ => none

def boolean? : Json → Option Bool
  | .boolean b => some b
  | _ => none

def text? : Json → Option String
  | .text s => some s
  | _ => none

def kindName : Json → String
  | .null => "null"
  | .boolean _ => "boolean"
  | .whole (.ofNat _) => "integer"
  | .whole (.negSucc _) => "number"
  | .fraction _ => "number"
  | .text _ => "string"
  | .list _ => "array"
  | .object _ => "object"

end Json

end DriftField
