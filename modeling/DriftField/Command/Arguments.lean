import DriftField.Command.Topic
import DriftField.Text.Blank
/-!
Command-line arguments: options with long names or single letters, and operands.
-/

namespace DriftField.Command

inductive Argument where
  | option (form : OptionForm) (value : Option String)
  /-- The mark after which all arguments are operands. -/
  | endOfOptions
  | operand
  | unknown

def Argument.ofForm? (value : Option (List Char)) : Option OptionForm → Argument
  | some form => .option form (value.map String.ofList)
  | none => .unknown

/-- The value that is attached to a letter, with or without an equals sign. Only an option that takes a
value has one. -/
def attached? (form : OptionForm) (text : List Char) : Option (List Char) :=
  match form.kind, text with
  | .value _, '=' :: value => some value
  | .value _, c :: value => some (c :: value)
  | _, _ => none

/-- Tells what an argument is. A value may be attached to a name after an equals sign, and to a letter
with or without one. A lone hyphen is an operand. -/
def Argument.of (forms : List OptionForm) (text : String) : Argument :=
  match text.toList with
  | ['-', '-'] => .endOfOptions
  | '-' :: '-' :: body =>
      match Text.cut? '=' body with
      | some (name, value) => .ofForm? (some value) (forms.find? fun f => f.name.toList == name)
      | none => .ofForm? none (forms.find? fun f => f.name.toList == body)
  | '-' :: letter :: rest =>
      match forms.find? fun f => f.letter == some letter with
      | some form => .option form ((attached? form rest).map String.ofList)
      | none => .unknown
  | _ => .operand

inductive Refusal where
  | wrong
  /-- Help is asked for. -/
  | help (topic : Topic)

abbrev Reading := Except Refusal

def require {α : Type} : Option α → Reading α
  | some a => .ok a
  | none => .error .wrong

/-- The options and operands that were given to a topic. -/
structure Given where
  topic : Topic
  options : List (String × String)
  operands : List String

namespace Given

def has (g : Given) (name : String) : Bool := (g.options.lookup name).isSome

def value? (g : Given) (name : String) : Option String :=
  match g.options.lookup name with
  | some value => some value
  | none => (g.topic.options.find? fun form => form.name == name).bind (·.default)

def add (g : Given) (form : OptionForm) (value : String) : Reading Given :=
  if g.has form.name then .error .wrong
  else .ok { g with options := (form.name, value) :: g.options }

def addValue (g : Given) (form : OptionForm) (kind : ValueKind) (value : String) : Reading Given :=
  if kind.accepts value then g.add form value else .error .wrong

def addOperands (g : Given) (operands : List String) : Given :=
  { g with operands := g.operands ++ operands }

def text (g : Given) (name : String) : Reading String := require (g.value? name)

def word (g : Given) (name : String) : Reading Nat := do
  let text ← g.text name
  require (Text.word text.toList).toOption

def number (g : Given) (name : String) : Reading Float := do
  let text ← g.text name
  require (Text.number? text.toList)

end Given

/-- Reads options and operands. Where a topic has parts, reading stops at the first operand, which is the
name of one of them. Gives what was read and what was not. -/
def scan : Given → List String → Reading (Given × List String)
  | g, [] => .ok (g, [])
  | g, arg :: rest =>
      match Argument.of g.topic.options arg with
      | .option form value =>
          match form.kind, value with
          | .help, none => .error (.help g.topic)
          | .flag, none => do scan (← g.add form "") rest
          | .value kind, some value => do scan (← g.addValue form kind value) rest
          | .value kind, none =>
              match rest with
              | [] => .error .wrong
              | value :: rest =>
                  match Argument.of g.topic.options value with
                  | .operand => do scan (← g.addValue form kind value) rest
                  | _ => .error .wrong
          | _, _ => .error .wrong
      | .endOfOptions => if g.topic.parts.isEmpty then .ok (g.addOperands rest, []) else .error .wrong
      | .operand =>
          if g.topic.parts.isEmpty then scan (g.addOperands [arg]) rest else .ok (g, arg :: rest)
      | .unknown => .error .wrong

def scanPart (t : Topic) (args : List String) : Reading (Given × Topic × List String) := do
  let (g, rest) ← scan ⟨t, [], []⟩ args
  match rest with
  | [] => .error .wrong
  | name :: rest =>
      match t.parts.find? fun part => part.name == name with
      | none => .error .wrong
      | some .help | some .libraryHelp => do .error (.help (← require (t.follow? rest)))
      | some part => .ok (g, part, rest)

def scanWhole (t : Topic) (args : List String) : Reading Given := do
  let (g, _) ← scan ⟨t, [], []⟩ args
  if g.operands.length = t.operand?.toList.length then .ok g else .error .wrong

end DriftField.Command
