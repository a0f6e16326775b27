import DriftField.Json.Value
/-!
Parameters: a JSON object of named values. Reading one never fails, for what is missing or of another
kind has a default; checking them against a schema refuses values of the wrong kind.
-/

namespace DriftField

structure ParameterFault where
  name : String
  expected : String
  got : String

def ParameterFault.message (f : ParameterFault) : String :=
  s!"parameter type mismatch for '{f.name}': expected {f.expected}, got {f.got}"

namespace Parameters

def float (params : Json) (name : String) (default : Float) : Float :=
  ((params.member? name).bind Json.float?).getD default

def floatWithin (params : Json) (name : String) (default low high : Float) : Float :=
  Scalar.within low high (float params name default)

def natural (params : Json) (name : String) (default : Nat) : Nat :=
  ((params.member? name).bind Json.natural?).getD default

def boolean (params : Json) (name : String) (default : Bool) : Bool :=
  ((params.member? name).bind Json.boolean?).getD default

def text (params : Json) (name : String) (default : String) : String :=
  ((params.member? name).bind Json.text?).getD default

/-- Whether a value is of the type that a schema declares. A type that is not known admits all values. -/
def admits (type : String) (value : Json) : Bool :=
  match type with
  | "number" => value.float?.isSome
  | "integer" => value.natural?.isSome
  | "boolean" => value.boolean?.isSome
  | "string" => value.text?.isSome
  | _ => true

def declared? (schema : Json) (name : String) : Option String := do
  let entry ← schema.member? name
  let type ← entry.member? "type"
  type.text?

/-- Checks one parameter. One that the schema does not declare is let through. -/
def checkMember (schema : Json) (name : String) (value : Json) : Except ParameterFault Unit :=
  match declared? schema name with
  | none => .ok ()
  | some type =>
      if admits type value then .ok () else .error ⟨name, type, value.kindName⟩

def check (schema : Json) : Json → Except ParameterFault Unit
  | .object members => members.forM fun (name, value) => checkMember schema name value
  | _ => .ok ()

end Parameters

end DriftField
