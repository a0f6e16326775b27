import DriftField.Expr.Parser
import DriftField.Expr.Printer
/-!
Field sources: a text with one line for each component of a vector field, and the fields that such texts
describe.
-/

namespace DriftField

structure Components where
  x : Expr
  y : Expr

namespace Components

structure Slots where
  x : Option Expr
  y : Option Expr

def nameOf : Coordinate → String
  | .x => "dx"
  | .y => "dy"

def ofName? (name : String) : Option Coordinate :=
  if name = nameOf .x then some .x else if name = nameOf .y then some .y else none

def Slots.get (slots : Slots) : Coordinate → Option Expr
  | .x => slots.x
  | .y => slots.y

def Slots.set (slots : Slots) (e : Expr) : Coordinate → Slots
  | .x => { slots with x := some e }
  | .y => { slots with y := some e }

/-- Reads one line that starts at byte `offset`. A blank line assigns nothing. -/
def readLine (offset : Nat) (line : List Char) (slots : Slots) : Except SourceError Slots :=
  let body := Text.trimStart line
  let lead := offset + Text.byteLength (line.takeWhile Text.isBlank)
  if body = [] then .ok slots
  else match Text.cut? '=' body with
  | none => .error ⟨lead, .noComponent⟩
  | some (before, after) =>
      let name := String.ofList (Text.trim before)
      match ofName? name with
      | none => .error ⟨lead, .unknownComponent name⟩
      | some c =>
          if (slots.get c).isSome then .error ⟨lead, .assignedTwice⟩
          else do
            let e ← Expr.ofText (lead + Text.byteLength before + 1) after
            return slots.set e c

def readLines (offset : Nat) : List (List Char) → Slots → Except SourceError Slots
  | [], slots => .ok slots
  | line :: lines, slots => do
      let slots ← readLine offset line slots
      readLines (offset + Text.byteLength line + 1) lines slots

/-- Reads a field source: each component on a line of its own, in either order, among blank lines. -/
def parse (text : String) : Except SourceError Components := do
  let slots ← readLines 0 (Text.pieces '\n' text.toList) ⟨none, none⟩
  let stop := Text.byteLength text.toList
  match slots.x, slots.y with
  | some x, some y => .ok ⟨x, y⟩
  | none, _ => .error ⟨stop, .unassigned (nameOf .x)⟩
  | _, none => .error ⟨stop, .unassigned (nameOf .y)⟩

def source (c : Components) : String :=
  "dx = " ++ c.x.text ++ "\ndy = " ++ c.y.text ++ "\n"

def size (c : Components) : Nat := c.x.size + c.y.size

def greatestSize : Nat := 4096

/-- Whether a field can be made of the expressions: they are not too large, no path in them is too long,
and their literals are finite, so that their source reads back. -/
def isSound (c : Components) : Bool :=
  c.size ≤ greatestSize && c.x.depth ≤ Expr.greatestDepth && c.y.depth ≤ Expr.greatestDepth
    && c.x.literalsFinite && c.y.literalsFinite

end Components

inductive SampleFault where
  | notFinite
  | failed (reason : String)

def SampleFault.message : SampleFault → String
  | .notFinite => "field produced a non-finite vector"
  | .failed reason => s!"field evaluation failed: {reason}"

structure FormulaField extends Components where
  sound : toComponents.isSound = true

namespace FormulaField

/-- The field of a pair of expressions, if they are sound. -/
def of? (c : Components) : Option FormulaField :=
  if h : c.isSound = true then some ⟨c, h⟩ else none

def ofSource (text : String) : Except SourceError (Option FormulaField) :=
  of? <$> Components.parse text

/-- The vector at a point. It is refused when it is not finite. -/
def sample (f : FormulaField) (p : Vec) : Except SampleFault Vec :=
  let v : Vec := ⟨f.x.eval p, f.y.eval p⟩
  if v.isFinite then .ok v else .error .notFinite

/-- The fields have the same source, and the same expressions up to literals that are equal as
numbers. -/
def same (f g : FormulaField) : Bool := f.x == g.x && f.y == g.y && f.source == g.source

end FormulaField

end DriftField
