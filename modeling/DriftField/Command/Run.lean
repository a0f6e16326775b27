import DriftField.Command.Help
import DriftField.Command.Library
import DriftField.Command.Render
/-!
Carrying out commands: the answer to each, and what remains of it.
-/

namespace DriftField

namespace Command

def answerSynthesize (json : Bool) (seed : UInt64) (pinned : Bool) : Attempt Answer := do
  let c ← synthesized (if pinned then .pinned else .full) seed
  let value := Json.record
    [("seed", Json.ofNat seed.toNat), ("dx", .text c.x.text), ("dy", .text c.y.text),
      ("nodes", Json.ofNat c.size)]
  return say json value (trimmed c.source)

def shareReport (s : Share) : Json :=
  Json.record
    [("seed", Json.ofNat s.seed.toNat), ("particle_count", Json.ofNat s.count),
      ("flow_intensity", Json.ofFloat s.flow), ("scale", Json.ofFloat s.scale),
      ("decay", Json.ofFloat s.decay), ("encoded", .text s.encode)]

def sayShare (json : Bool) (s : Share) : Answer := say json (shareReport s) s.encode

def answerEncode (json : Bool) (seed : UInt64) (preset : String) : Attempt Answer := do
  let s ← presetSettings preset
  return sayShare json (s.share seed)

def answerDecode (json : Bool) (code : String) : Attempt Answer := do
  let s ← lift .share (Share.decode code)
  return sayShare json s

def answerPresets (json : Bool) : Answer :=
  say json (Json.record (Preset.all.map fun p => (p.name, p.settings.parameters)))
    ("\n".intercalate (Preset.all.map Preset.name))

def answer (json : Bool) (files : Files) (now : UInt64) : Command → Attempt Answer
  | .render r => r.answer json files
  | .synthesize seed pinned => answerSynthesize json seed pinned
  | .encode seed preset => answerEncode json seed preset
  | .decode code => answerDecode json code
  | .library file action => action.answer json files now file
  | .presets => .ok (answerPresets json)

/-- The files whose text a command may look at. -/
def paths : Command → List String
  | .render r => r.sourceFile.toList
  | .library file (.save _ (.file path) _) => [file, path]
  | .library file _ => [file]
  | _ => []

end Command

structure Outcome where
  code : Nat
  out : String
  err : String

namespace Outcome

open Command

def success (a : Answer) : Outcome := ⟨0, a.out, a.err⟩

/-- What a failure says. One for lack of memory says the same in every form. -/
def failureText (json : Bool) : CommandFault → String
  | .outOfMemory bytes => (CommandFault.outOfMemory bytes).message
  | f =>
      if json then
        Json.prettyText (Json.record [("error", .text f.message), ("exit_code", Json.ofNat f.exitCode)])
      else "error: " ++ f.message

def failure (json : Bool) (f : CommandFault) : Outcome := ⟨f.exitCode, "", failureText json f ++ "\n"⟩

def afterWriting (json : Bool) (a : Answer) (path : String) : Except FileCause Unit → Outcome
  | .ok () => success a
  | .error cause => failure json (.fault (.file path cause))

def refusal : Refusal → Outcome
  | .wrong => ⟨2, "", "Usage: " ++ Topic.program.usage ++ "\n"⟩
  | .help topic => ⟨0, topic.helpText, ""⟩

end Outcome

def Invocation.perform (i : Invocation) (now : UInt64) (disk : Disk) : Outcome × Disk :=
  match i.command.answer i.json disk.read now with
  | .error f => (.failure i.json f, disk)
  | .ok a =>
      match a.write with
      | none => (.success a, disk)
      | some (path, content) =>
          let (result, disk) := disk.write path content
          (.afterWriting i.json a path result, disk)

def Disk.perform (disk : Disk) (now : UInt64) (args : List String) : Outcome × Disk :=
  match Invocation.read args with
  | .ok i => i.perform now disk
  | .error refusal => (.refusal refusal, disk)

end DriftField
