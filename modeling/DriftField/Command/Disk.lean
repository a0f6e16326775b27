import DriftField.Dictionary
import DriftField.Png
/-!
Files in directories: what they hold, where paths lead, and what reading and writing does.
-/

namespace DriftField

inductive Content where
  | text (s : String)
  | picture (c : Canvas)

def Content.reading : Content → Except FileCause String
  | .text s => .ok s
  | .picture _ => .error .notText

/-- What is written when a file is to hold something, and the cause if that is not what was meant. A
picture in a format that is not supported leaves an empty file. -/
def Content.accepted (path : String) : Content → Option Content × Option FileCause
  | .text s => (some (.text s), none)
  | .picture c =>
      match ImageName.fault? path with
      | none => (some (.picture c), none)
      | some (.unsupportedImageFormat format) => (some (.text ""), some (.unsupportedImageFormat format))
      | some cause => (none, some cause)

/-- A directory, from the root down. -/
inductive Folder where
  | root
  | inside (folder : Folder) (name : String)
  deriving DecidableEq

namespace Folder

def parent : Folder → Folder
  | .root => .root
  | .inside folder _ => folder

/-- The path from the root to something in a directory. -/
def entry : Folder → String → String
  | .root, name => "/" ++ name
  | .inside folder last, name => folder.entry last ++ "/" ++ name

end Folder

inductive Place where
  | folder (folder : Folder)
  | file (path : String)

/-- The directories that there are in others, and the one from which paths start that do not start from the root. -/
structure Layout where
  here : Folder
  folders : List Folder

namespace Layout

def nameLimit : Nat := 255

/-- What a part of a path leads to. -/
def step (layout : Layout) (folder : Folder) (part : String) : Except FileCause Place :=
  if part = "." then .ok (.folder folder)
  else if part = ".." then .ok (.folder folder.parent)
  else if nameLimit < part.utf8ByteSize then .error .nameTooLong
  else if layout.folders.contains (folder.inside part) then .ok (.folder (folder.inside part))
  else .ok (.file (folder.entry part))

end Layout

/-- Directories, and the files in them by the path from the root to each. -/
structure Disk extends Layout where
  files : Dictionary Content

namespace Disk

/-- Follows parts of a path, each of which has to be a directory. -/
def enter (disk : Disk) : Folder → List String → Except FileCause Folder
  | folder, [] => .ok folder
  | folder, part :: rest => do
      match ← disk.step folder part with
      | .folder next => enter disk next rest
      | .file path => .error (if (Dictionary.find? path disk.files).isSome then .notDirectory else .absent)

def pathLimit : Nat := 4096

/-- A slash at the end of a path asks for a directory. -/
def asksForDirectory (path : String) : Bool := path.toList.getLast? == some '/'

/-- The last part of a path, and the directory that the parts before it lead to. -/
def approach (disk : Disk) (path : String) : Except FileCause (Folder × String) := do
  if path = "" then throw .absent
  if pathLimit ≤ path.utf8ByteSize then throw .nameTooLong
  let start := if path.toList.head? = some '/' then .root else disk.here
  let parts := ((Text.pieces '/' path.toList).filter (· ≠ [])).map String.ofList
  return (← disk.enter start parts.dropLast, parts.getLastD ".")

def read (disk : Disk) (path : String) : Except FileCause String := do
  let (folder, part) ← disk.approach path
  match ← disk.step folder part with
  | .folder _ => .error .directory
  | .file name =>
      match Dictionary.find? name disk.files with
      | none => .error .absent
      | some content => if asksForDirectory path then .error .notDirectory else content.reading

def target (disk : Disk) (path : String) : Except FileCause String := do
  let (folder, part) ← disk.approach path
  if asksForDirectory path then throw .directory
  match ← disk.step folder part with
  | .folder _ => .error .directory
  | .file name => .ok name

def write (disk : Disk) (path : String) (content : Content) : Except FileCause Unit × Disk :=
  match content.accepted path with
  | (none, cause) => (.error (cause.getD .noImageFormat), disk)
  | (some content, cause) =>
      match disk.target path with
      | .error cause => (.error cause, disk)
      | .ok name =>
          (cause.elim (.ok ()) .error, { disk with files := Dictionary.insert name content disk.files })

end Disk

end DriftField
