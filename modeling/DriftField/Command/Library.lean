import DriftField.Command.Answer
import DriftField.Command.Invocation
/-!
Actions on the library in a file. The file is written only by an action that succeeds and changes it.
-/

namespace DriftField.LibraryAction

open Command

/-- The library in a file. A file that is absent holds an empty one. -/
def libraryOf (files : Files) (file : String) : Attempt Library :=
  match files file with
  | .error .absent => .ok Library.empty
  | .error cause => .error (.fault (.file file cause))
  | .ok text =>
      match Library.ofText? text with
      | some lib => .ok lib
      | none => .error (.fault (.file file .malformedLibrary))

def checkSource (code : String) : Attempt Unit :=
  match FormulaField.ofSource code with
  | .error error => .error (.fault (.source error))
  | .ok none => .error .tooManyNodes
  | .ok (some _) => .ok ()

def sourceOf (files : Files) : FieldOrigin → Attempt String
  | .seed seed => do
      let c ← synthesized .full seed
      return c.source
  | .file path => do
      let code ← textOf files path
      checkSource code
      return code

def fieldReport (f : SavedField) : Json :=
  Json.record [("name", .text f.name), ("code", .text f.code), ("savedAt", Json.ofNat f.savedAt.toNat)]

def answer (action : LibraryAction) (json : Bool) (files : Files) (now : UInt64) (file : String) :
    Attempt Answer := do
  let lib ← libraryOf files file
  match action with
  | .save name origin overwrite =>
      let code ← sourceOf files origin
      let f : SavedField := ⟨name, code, now⟩
      let lib ← lift .library (lib.add f overwrite)
      return { say json (fieldReport f) s!"saved '{name}' to {file}" with
        write := some (file, .text lib.toText) }
  | .load name =>
      let f ← lift .library (lib.get name)
      return say json (fieldReport f) (trimmed f.code)
  | .list => return say json (.list (lib.names.map .text)) ("\n".intercalate lib.names)
  | .delete name =>
      let (f, lib) ← lift .library (lib.remove name)
      return { say json (Json.record [("deleted", .text f.name)]) s!"deleted '{f.name}'" with
        write := some (file, .text lib.toText) }

end DriftField.LibraryAction
