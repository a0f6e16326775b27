import DriftField.Command.Disk
import DriftField.Settings.Preset
/-!
Answers of commands. A command looks at files through a function that gives the text of each, so that its
answer depends on nothing else.
-/

namespace DriftField

inductive CommandFault where
  | fault (f : Fault)
  | badParameters
  | badPointer (text : String)
  | tooManyNodes
  /-- A picture of so many bytes does not fit in memory. -/
  | outOfMemory (bytes : Nat)

namespace CommandFault

def message : CommandFault → String
  | .fault f => f.message
  | .badParameters => "invalid --params JSON: no JSON value"
  | .badPointer text => s!"invalid --pointer '{text}': expected x,y"
  | .tooManyNodes => "field source exceeds the node limit"
  | .outOfMemory bytes => s!"memory allocation of {bytes} bytes failed"

def abortCode : Nat := 134

/-- Ten where no field or picture can be made, eleven where a file is in the way, and twelve where the
input is wrong; another code where memory ends. -/
def exitCode : CommandFault → Nat
  | .fault .dimensions | .fault (.synthesis _) | .fault .noTerminalRule | .fault .tooLarge => 10
  | .fault (.file _ _) => 11
  | .outOfMemory _ => abortCode
  | _ => 12

end CommandFault

structure Answer where
  out : String
  err : String
  write : Option (String × Content)

namespace Command

abbrev Attempt := Except CommandFault

def lift {α ε : Type} (f : ε → Fault) : Except ε α → Attempt α
  | .ok a => .ok a
  | .error e => .error (.fault (f e))

abbrev Files := String → Except FileCause String

def textOf (files : Files) (path : String) : Attempt String := lift (Fault.file path) (files path)

/-- A line of text, or the JSON value that says the same. -/
def say (json : Bool) (value : Json) (text : String) : Answer :=
  ⟨(if json then Json.prettyText value else text) ++ "\n", "", none⟩

def trimmed (text : String) : String := String.ofList (Text.trimEnd text.toList)

def presetSettings (name : String) : Attempt Settings :=
  match Preset.ofName? name with
  | some p => .ok p.settings
  | none => .error (.fault (.unknownPreset name))

def synthesized (grammar : Grammar) (seed : UInt64) : Attempt Components :=
  lift .synthesis ((Synthesis.synthesize grammar).run (Stream.ofSeed seed)).1

end Command

end DriftField
