import DriftField.Command.Option
import DriftField.Decimal.Text
import DriftField.Swarm.Basic
/-!
Topics of the command line: the program, its commands and the actions on a library, with the options and
operands of each and what is said about them.
-/

namespace DriftField.Command

/-- What options belong to, and what help can be asked about. -/
inductive Topic where
  | program
  | render
  | synthesis
  | share
  | library
  | presets
  | help
  | save
  | load
  | list
  | delete
  | libraryHelp
  deriving DecidableEq

namespace Topic

def name : Topic → String
  | program => "flowfield"
  | render => "render"
  | synthesis => "synth"
  | share => "share"
  | library => "library"
  | presets => "presets"
  | save => "save"
  | load => "load"
  | list => "list"
  | delete => "delete"
  | help | libraryHelp => "help"

def about : Topic → String
  | program => "Particles drifting through synthesized vector fields"
  | render => "Run the simulation for N ticks and write a PNG snapshot"
  | synthesis => "Print the field source synthesized from a seed"
  | share => "Encode a share string for a seed, or decode one"
  | library => "Manage saved field functions"
  | presets => "List the named presets"
  | save => "Save the field for a seed, or from a source file, under a name"
  | load => "Print a saved function's source"
  | list => "List saved functions"
  | delete => "Delete a saved function"
  | help | libraryHelp => "Print this message or the help of the given subcommand(s)"

def parts : Topic → List Topic
  | program => [render, synthesis, share, library, presets, help]
  | library => [save, load, list, delete, libraryHelp]
  | _ => []

def path : Topic → List String
  | program => [program.name]
  | save => [program.name, library.name, save.name]
  | load => [program.name, library.name, load.name]
  | list => [program.name, library.name, list.name]
  | delete => [program.name, library.name, delete.name]
  | libraryHelp => [program.name, library.name, libraryHelp.name]
  | topic => [program.name, topic.name]

def renderOptions : List OptionForm :=
  [.json,
    { OptionForm.preset with about := "Preset name (see \x60flowfield presets\x60)" },
    { OptionForm.seed with about := "Field seed" },
    { name := "share", kind := .value .text, about := "Share string to rebuild instead of a seed" },
    { OptionForm.sourceFile with
      about := "Field source file (\x60dx = ...\x60 / \x60dy = ...\x60) replacing the seeded field" },
    { name := "width", kind := .value .word, about := "Canvas width in pixels", letter := some 'W',
      default := some "512" },
    { name := "height", kind := .value .word, about := "Canvas height in pixels", letter := some 'H',
      default := some "512" },
    { name := "ticks", kind := .value .word, about := "Number of simulation ticks", letter := some 't',
      default := some "300" },
    { name := "delta-ms", kind := .value .number, about := "Milliseconds per tick",
      default := some (Decimal.plainString Swarm.timeStep) },
    { name := "pointer", kind := .value .text, about := "Pointer position as \x60x,y\x60" },
    { name := "burst", kind := .value .word,
      about := "Particles to burst at the pointer before the first tick" },
    { name := "show-field", kind := .flag, about := "Overlay field arrows" },
    { name := "params", kind := .value .text, about := "Parameter overrides as a JSON object",
      default := some "\x7b\x7d" },
    { name := "output", kind := .value .path, about := "Output file path", letter := some 'o',
      default := some "flowfield.png" },
    .help]

def options : Topic → List OptionForm
  | program | presets | load | list | delete => [.json, .help]
  | render => renderOptions
  | synthesis =>
      [.json, .seed,
        { name := "pinned", kind := .flag, about := "Use the minimal point-and-arithmetic grammar" },
        .help]
  | share =>
      [.json, { OptionForm.seed with default := none },
        { OptionForm.preset with about := "Preset supplying the tunables when encoding" },
        { name := "decode", kind := .value .text, about := "Share string to decode" },
        .help]
  | library =>
      [{ name := "file", kind := .value .path, about := "Library file",
          default := some "flowfield-library.json" },
        .json, .help]
  | save =>
      [.json, .seed, .sourceFile,
        { name := "overwrite", kind := .flag, about := "Replace an existing record of the same name" },
        .help]
  | help | libraryHelp => []

def operand? : Topic → Option (String × String)
  | save | load | delete => some ("<NAME>", "")
  | help | libraryHelp => some ("[COMMAND]...", "Print help for the subcommand(s)")
  | _ => none

def follow? (t : Topic) : List String → Option Topic
  | [] => some t
  | name :: names => do
      let part ← t.parts.find? fun part => part.name == name
      follow? part names

end Topic

end DriftField.Command
