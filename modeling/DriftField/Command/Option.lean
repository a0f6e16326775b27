import DriftField.Text.Number
/-!
Options of commands: what each is called, what it takes, and what is said about it.
-/

namespace DriftField.Command

inductive ValueKind where
  | text
  | path
  /-- An unsigned 64-bit number. -/
  | word
  | number
  deriving DecidableEq

def ValueKind.accepts (text : String) : ValueKind → Bool
  | .text => true
  | .path => text ≠ ""
  | .word => (Text.word text.toList).isOk
  | .number => (Text.number? text.toList).isSome

inductive OptionKind where
  | flag
  /-- Asks for help instead of anything else. -/
  | help
  | value (kind : ValueKind)
  deriving DecidableEq

structure OptionForm where
  name : String
  kind : OptionKind
  about : String := ""
  letter : Option Char := none
  default : Option String := none

namespace OptionForm

def json : OptionForm :=
  { name := "json", kind := .flag, about := "Output as JSON instead of human-readable text" }

def help : OptionForm := { name := "help", kind := .help, about := "Print help", letter := some 'h' }

def seed : OptionForm := { name := "seed", kind := .value .word, default := some "42" }

def preset : OptionForm := { name := "preset", kind := .value .text, default := some "organic" }

def sourceFile : OptionForm := { name := "source-file", kind := .value .path }

def valueName (f : OptionForm) : String :=
  String.ofList (f.name.toList.map fun c => if c = '-' then '_' else c.toUpper)

end OptionForm

end DriftField.Command
