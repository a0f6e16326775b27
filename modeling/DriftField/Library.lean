import DriftField.Json.Printer
import DriftField.Json.Reader
/-!
Libraries of saved fields. A library keeps the source of each field under a name; its text is a JSON
object with one record for each name.
-/

namespace DriftField

structure SavedField where
  name : String
  code : String
  /-- Milliseconds since the start of the Unix epoch. -/
  savedAt : UInt64
  deriving DecidableEq

namespace SavedField

def toJson (f : SavedField) : Json :=
  .object [("name", .text f.name), ("code", .text f.code), ("savedAt", Json.ofNat f.savedAt.toNat)]

def ofSpelled? (s : Json.Spelled) : Option SavedField := do
  match ← s.fields? ["name", "code", "savedAt"] with
  | [name, code, savedAt] =>
      let name ← name.string?
      let code ← code.string?
      let savedAt ← savedAt.word?
      return ⟨name, code, savedAt.toUInt64⟩
  | _ => none

end SavedField

inductive LibraryFault where
  /-- There is a field of the name already. -/
  | taken (name : String)
  /-- There is no field of the name. -/
  | missing (name : String)

def LibraryFault.message : LibraryFault → String
  | .taken name => s!"function record already exists: {name}"
  | .missing name => s!"function record not found: {name}"

abbrev Library := Dictionary SavedField

namespace Library

def empty : Library := []

def get (lib : Library) (name : String) : Except LibraryFault SavedField :=
  match Dictionary.find? name lib with
  | some f => .ok f
  | none => .error (.missing name)

/-- Adds a field under its name. One of the same name is replaced only if that is asked for. -/
def add (lib : Library) (f : SavedField) (overwrite : Bool) : Except LibraryFault Library :=
  if !overwrite && (Dictionary.find? f.name lib).isSome then .error (.taken f.name)
  else .ok (Dictionary.insert f.name f lib)

def remove (lib : Library) (name : String) : Except LibraryFault (SavedField × Library) := do
  let f ← lib.get name
  return (f, Dictionary.erase name lib)

def names (lib : Library) : List String := Dictionary.keys lib

def toText (lib : Library) : String :=
  Json.prettyText (.object (lib.map fun entry => (entry.1, entry.2.toJson)))

def ofMembers? : List (List Json.Letter × Json.Spelled) → Option (List (String × SavedField))
  | [] => some []
  | (name, item) :: rest => do
      let name ← Json.string? name
      let f ← SavedField.ofSpelled? item
      let fields ← ofMembers? rest
      return (name, f) :: fields

def ofText? (text : String) : Option Library := do
  match ← Json.spelled? text.length text with
  | .object members => Dictionary.ofPairs <$> ofMembers? members
  | _ => none

end Library

end DriftField
