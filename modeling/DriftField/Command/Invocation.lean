import DriftField.Command.Arguments
/-!
What a command line asks for.
-/

namespace DriftField

inductive FieldOrigin where
  | seed (seed : UInt64)
  /-- A source in a file. -/
  | file (path : String)

inductive LibraryAction where
  | save (name : String) (origin : FieldOrigin) (overwrite : Bool)
  | load (name : String)
  | list
  | delete (name : String)

inductive RenderStart where
  | seed (seed : UInt64)
  | share (code : String)

structure RenderRequest where
  preset : String
  start : RenderStart
  sourceFile : Option String
  width : Nat
  height : Nat
  ticks : Nat
  delta : Float
  pointer : Option String
  burst : Option Nat
  showField : Bool
  parameters : String
  output : String

inductive Command where
  | render (request : RenderRequest)
  | synthesize (seed : UInt64) (pinned : Bool)
  | encode (seed : UInt64) (preset : String)
  | decode (code : String)
  | library (file : String) (action : LibraryAction)
  | presets

structure Invocation where
  json : Bool
  command : Command

namespace Command

def seedOf (g : Given) : Reading UInt64 := do return (← g.word "seed").toUInt64

def sourceFileOf (g : Given) : Option String := g.value? "source-file"

def readRender (args : List String) : Reading Invocation := do
  let g ← scanWhole .render args
  let seed ← seedOf g
  let start ← match g.value? "share" with
    | none => .ok (RenderStart.seed seed)
    | some code => if g.has "seed" then .error .wrong else .ok (.share code)
  let burst ← if g.has "burst" then some <$> g.word "burst" else .ok none
  return ⟨g.has "json", .render {
    preset := ← g.text "preset"
    start
    sourceFile := sourceFileOf g
    width := ← g.word "width"
    height := ← g.word "height"
    ticks := ← g.word "ticks"
    delta := ← g.number "delta-ms"
    pointer := g.value? "pointer"
    burst
    showField := g.has "show-field"
    parameters := ← g.text "params"
    output := ← g.text "output" }⟩

def readSynthesis (args : List String) : Reading Invocation := do
  let g ← scanWhole .synthesis args
  return ⟨g.has "json", .synthesize (← seedOf g) (g.has "pinned")⟩

def readShare (args : List String) : Reading Invocation := do
  let g ← scanWhole .share args
  match g.value? "decode" with
  | some code => if g.has "seed" then .error .wrong else .ok ⟨g.has "json", .decode code⟩
  | none => return ⟨g.has "json", .encode (← seedOf g) (← g.text "preset")⟩

def readSave (args : List String) : Reading (Given × LibraryAction) := do
  let g ← scanWhole .save args
  let origin ← match sourceFileOf g with
    | none => FieldOrigin.seed <$> seedOf g
    | some path => if g.has "seed" then .error .wrong else .ok (.file path)
  return (g, .save (g.operands.headD "") origin (g.has "overwrite"))

def readNamed (t : Topic) (action : String → LibraryAction) (args : List String) :
    Reading (Given × LibraryAction) := do
  let g ← scanWhole t args
  return (g, action (g.operands.headD ""))

def readLibrary (args : List String) : Reading Invocation := do
  let (g, part, args) ← scanPart .library args
  let (g', action) ← match part with
    | .save => readSave args
    | .load => readNamed .load .load args
    | .list => readNamed .list (fun _ => .list) args
    | .delete => readNamed .delete .delete args
    | _ => .error .wrong
  return ⟨g.has "json" || g'.has "json", .library (← g.text "file") action⟩

def readPresets (args : List String) : Reading Invocation := do
  let g ← scanWhole .presets args
  return ⟨g.has "json", .presets⟩

end Command

open Command in
def Invocation.read (args : List String) : Reading Invocation := do
  let (g, part, args) ← scanPart .program args
  let i ← match part with
    | .render => readRender args
    | .synthesis => readSynthesis args
    | .share => readShare args
    | .library => readLibrary args
    | .presets => readPresets args
    | _ => .error .wrong
  return { i with json := i.json || g.has "json" }

end DriftField
