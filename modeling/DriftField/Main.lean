import DriftField.Command.Run
import Std.Time.DateTime.Timestamp
/-!
The command line: it looks at the files that a command names, answers the command, and writes what it
asks for.
-/

namespace DriftField

/-- The cause that the system gives for a failure. Its number may come with a minus sign. -/
def FileCause.ofError (error : IO.Error) : FileCause :=
  match error with
  | .noFileOrDirectory _ _ _ => .absent
  | .inappropriateType _ code _ => if code.toInt32.toInt.natAbs = 20 then .notDirectory else .directory
  | .invalidArgument _ code _ =>
      if code.toInt32.toInt.natAbs = 36 then .nameTooLong else .other (toString error)
  | _ => .other (toString error)

def Content.bytes : Content → ByteArray
  | .text s => s.toUTF8
  | .picture c => ⟨(Png.encode c).toArray⟩

namespace Terminal

def readText (path : String) : IO (Except FileCause String) := do
  try
    match String.fromUTF8? (← IO.FS.readBinFile path) with
    | some text => return .ok text
    | none => return .error .notText
  catch error => return .error (.ofError error)

def write (path : String) (content : Content) : IO (Except FileCause Unit) := do
  match content.accepted path with
  | (none, cause) => return .error (cause.getD .noImageFormat)
  | (some content, cause) =>
      try
        IO.FS.writeBinFile path content.bytes
        return cause.elim (.ok ()) .error
      catch error => return .error (.ofError error)

def now : IO UInt64 := do
  let t ← Std.Time.Timestamp.now
  return t.toMillisecondsSinceUnixEpoch.toInt.toNat.toUInt64

def perform (i : Invocation) : IO Outcome := do
  let texts ← i.command.paths.mapM fun path => do return (path, ← readText path)
  let files (path : String) := (texts.lookup path).getD (.error .absent)
  match i.command.answer i.json files (← now) with
  | .error fault => return .failure i.json fault
  | .ok answer =>
      match answer.write with
      | none => return .success answer
      | some (path, content) => return .afterWriting i.json answer path (← write path content)

end Terminal

end DriftField

open DriftField in
def main (args : List String) : IO UInt32 := do
  let outcome ← match Invocation.read args with
    | .ok i => Terminal.perform i
    | .error refusal => pure (.refusal refusal)
  IO.print outcome.out
  IO.eprint outcome.err
  return outcome.code.toUInt32
