import DriftField.Command.Topic
/-!
Help about a topic: what it is about, how it is used, and tables of its parts, its operand and its
options.
-/

namespace DriftField.Command

/-- Rows of two columns. The second one starts two blanks after the longest entry of the first. -/
def table (rows : List (String × String)) : String :=
  let width := (rows.map fun row => row.1.length).foldl max 0
  String.join <| rows.map fun (left, right) =>
    "  " ++ left ++ String.ofList (List.replicate (width + 2 - left.length) ' ') ++ right ++ "\n"

def titled (title : String) (rows : List (String × String)) : String :=
  if rows.isEmpty then "" else "\n" ++ title ++ ":\n" ++ table rows

/-- How an option is spelled. Names stand below each other whether or not letters stand before them. -/
def OptionForm.spelling (f : OptionForm) : String :=
  f.letter.elim "    " (fun c => String.ofList ['-', c, ',', ' ']) ++ "--" ++ f.name ++
    match f.kind with
    | .value _ => " <" ++ f.valueName ++ ">"
    | _ => ""

def OptionForm.description (f : OptionForm) : String :=
  " ".intercalate ([f.about, f.default.elim "" fun d => "[default: " ++ d ++ "]"].filter (· ≠ ""))

namespace Topic

def usage (t : Topic) : String :=
  " ".intercalate <| t.path ++ (if t.options.isEmpty then [] else ["[OPTIONS]"])
    ++ (t.operand?.map Prod.fst).toList ++ (if t.parts.isEmpty then [] else ["<COMMAND>"])

def helpText (t : Topic) : String :=
  t.about ++ "\n\nUsage: " ++ t.usage ++ "\n"
    ++ titled "Commands" (t.parts.map fun part => (part.name, part.about))
    ++ titled "Arguments" t.operand?.toList
    ++ titled "Options" (t.options.map fun f => (f.spelling, f.description))

end Topic

end DriftField.Command
