import Mathlib
import DriftField.Proofs.Expr.Tokens
import DriftField.Proofs.Share
/-!
The lines of a field source. A text is accepted exactly if one of its lines assigns the first component, one the second,
and every other line is blank. The order of the lines, blank lines and blanks before a line make no difference.
-/

namespace DriftField

namespace Text

variable {separator : Char} {indent line text before after : List Char}

def lines (text : String) : List (List Char) := pieces '\n' text.toList

def Blank (line : List Char) : Prop := ∀ c ∈ line, isBlank c = true

instance : DecidablePred Blank := fun line => decidable_of_iff (line.all isBlank = true) List.all_eq_true

@[simp] theorem blank_append : Blank (indent ++ line) ↔ Blank indent ∧ Blank line := List.forall_mem_append

theorem trimStart_eq_nil_iff : trimStart line = [] ↔ Blank line := List.dropWhile_eq_nil_iff

theorem trim_append (blank : Blank indent) (line : List Char) : trim (indent ++ line) = trim line := by
  unfold trim trimStart
  rw [List.dropWhile_append_of_pos blank]

theorem exists_indent (line : List Char) : ∃ indent, Blank indent ∧ line = indent ++ trimStart line :=
  ⟨line.takeWhile isBlank, fun _ => List.mem_takeWhile_imp, List.takeWhile_append_dropWhile.symm⟩

theorem cut?_eq_some_iff : cut? separator text = some (before, after) ↔
    separator ∉ before ∧ text = before ++ separator :: after := by
  constructor
  · intro cut
    unfold cut? at cut
    split at cut
    · cases cut
    · next found rest split =>
      cases cut
      have here : found = separator := by
        have last := List.head?_dropWhile_not (fun c => decide (c ≠ separator)) text
        rw [split] at last
        simpa using last
      subst here
      refine ⟨fun member => ?_, ?_⟩
      · simpa using List.mem_takeWhile_imp member
      · rw [← split, List.takeWhile_append_dropWhile]
  · rintro ⟨absent, rfl⟩
    exact cut?_append absent after

end Text

namespace Components

open Text (Blank)

variable {c c' : Coordinate} {e e' : Expr} {slots out : Slots} {indent line : List Char} {lines : List (List Char)}

/-- A line that gives an expression to a component: what stands before its first equals sign is the name of the
component, blanks aside, and what follows reads as the expression. -/
def Assigns (c : Coordinate) (e : Expr) (line : List Char) : Prop :=
  ∃ before after, '=' ∉ before ∧ line = before ++ '=' :: after ∧ Text.trim before = (nameOf c).toList ∧
    Expr.parse (String.ofList after) = .ok e

theorem equals_not_mem (blank : Blank indent) : '=' ∉ indent := fun member => by
  cases blank '=' member

theorem Assigns.not_blank (assigns : Assigns c e line) : ¬ Blank line := by
  obtain ⟨before, after, -, rfl, -⟩ := assigns
  exact fun blank => equals_not_mem blank (by simp)

theorem assigns_append (blank : Blank indent) : Assigns c e (indent ++ line) ↔ Assigns c e line := by
  constructor
  · rintro ⟨before, after, absent, same, named, read⟩
    -- No equals sign stands in the indentation, so what is before the first one begins with it.
    obtain ⟨before', rfl⟩ : indent <+: before := by
      rcases List.append_eq_append_iff.mp same with ⟨before', split, -⟩ | ⟨tail, split, rest⟩
      · exact ⟨before', split.symm⟩
      · cases tail with
        | nil => exact ⟨[], by simpa using split⟩
        | cons d tail =>
            obtain ⟨rfl, -⟩ := List.cons.inj rest
            exact absurd (by simp [split]) (equals_not_mem blank)
    rw [List.append_assoc, List.append_cancel_left_eq] at same
    rw [Text.trim_append blank] at named
    exact ⟨before', after, fun member => absent (List.mem_append_right _ member), same, named, read⟩
  · rintro ⟨before, after, absent, rfl, named, read⟩
    refine ⟨indent ++ before, after, ?_, by simp, ?_, read⟩
    · simp [absent, equals_not_mem blank]
    · rw [Text.trim_append blank, named]

theorem ofName?_eq_some_iff {name : String} : ofName? name = some c ↔ name = nameOf c := by
  unfold ofName?
  split_ifs with first second
  · subst first
    cases c <;> decide
  · subst second
    cases c <;> decide
  · cases c
    · exact ⟨nofun, fun same => absurd same first⟩
    · exact ⟨nofun, fun same => absurd same second⟩

namespace Slots

@[simp] theorem get_set (slots : Slots) (e : Expr) (c : Coordinate) : (slots.set e c).get c = some e := by
  cases c <;> rfl

theorem get_set_of_ne (slots : Slots) (e : Expr) (other : c' ≠ c) : (slots.set e c).get c' = slots.get c' := by
  cases c <;> cases c' <;> first | rfl | exact absurd rfl other

theorem set_set (slots : Slots) (e e' : Expr) (other : c' ≠ c) :
    (slots.set e c).set e' c' = (slots.set e' c').set e c := by
  cases c <;> cases c' <;> first | rfl | exact absurd rfl other

end Slots

/-! ### One line -/

def enter (line : List Char) (slots : Slots) : Option Slots := (readLine 0 line slots).toOption

theorem toOption_readLine (offset : Nat) (line : List Char) (slots : Slots) :
    (readLine offset line slots).toOption = enter line slots := by
  unfold enter readLine
  dsimp only
  split
  · rfl
  · cases Text.cut? '=' (Text.trimStart line) with
    | none => rfl
    | some cut =>
        obtain ⟨before, after⟩ := cut
        dsimp only
        cases ofName? (String.ofList (Text.trim before)) with
        | none => rfl
        | some c =>
            dsimp only
            split
            · rfl
            · rw [toOption_bind, toOption_bind, Expr.toOption_ofText]

def assigned? (line : List Char) : Option (Coordinate × Expr) := do
  let (before, after) ← Text.cut? '=' line
  let c ← ofName? (String.ofList (Text.trim before))
  let e ← (Expr.ofText 0 after).toOption
  return (c, e)

theorem assigned?_eq_some_iff : assigned? line = some (c, e) ↔ Assigns c e line := by
  unfold assigned? Assigns Expr.parse
  simp only [Option.bind_eq_bind, Option.bind_eq_some_iff, Prod.exists, Text.cut?_eq_some_iff, ofName?_eq_some_iff,
    toOption_eq_some_iff, Option.pure_def, Option.some.injEq, Prod.mk.injEq, and_assoc, String.toList_ofList]
  constructor
  · rintro ⟨before, after, absent, same, name, named, value, read, rfl, rfl⟩
    exact ⟨before, after, absent, same, by rw [← named, String.toList_ofList], read⟩
  · rintro ⟨before, after, absent, same, named, read⟩
    exact ⟨before, after, absent, same, c, by rw [named, String.ofList_toList], e, read, rfl, rfl⟩

theorem enter_eq (line : List Char) (slots : Slots) :
    enter line slots =
      if Text.trimStart line = [] then some slots
      else (assigned? (Text.trimStart line)).bind fun (c, e) =>
        if (slots.get c).isSome then none else some (slots.set e c) := by
  unfold enter readLine assigned?
  dsimp only
  split
  · rfl
  · cases Text.cut? '=' (Text.trimStart line) with
    | none => rfl
    | some cut =>
        obtain ⟨before, after⟩ := cut
        dsimp only [Option.bind_eq_bind, Option.bind_some]
        cases ofName? (String.ofList (Text.trim before)) with
        | none => rfl
        | some c =>
            dsimp only [Option.bind_some]
            split
            · next taken => cases (Expr.ofText 0 after).toOption <;> simp [taken, Except.toOption]
            · next free =>
              rw [toOption_bind, Expr.toOption_ofText _ 0]
              cases (Expr.ofText 0 after).toOption with
              | none => rfl
              | some e => exact (if_neg free).symm

theorem enter_eq_some_iff : enter line slots = some out ↔
    Blank line ∧ out = slots ∨ ∃ c e, Assigns c e line ∧ slots.get c = none ∧ out = slots.set e c := by
  obtain ⟨indent, blank, same⟩ := Text.exists_indent line
  rw [enter_eq]
  split
  · next empty =>
    have blank' := Text.trimStart_eq_nil_iff.mp empty
    constructor
    · rintro ⟨⟩
      exact .inl ⟨blank', rfl⟩
    · rintro (⟨-, rfl⟩ | ⟨c, e, assigns, -⟩)
      · rfl
      · exact absurd blank' assigns.not_blank
  · next solid =>
    have here (c : Coordinate) (e : Expr) :
        assigned? (Text.trimStart line) = some (c, e) ↔ Assigns c e line := by
      rw [assigned?_eq_some_iff, ← assigns_append blank, ← same]
    rw [Option.bind_eq_some_iff]
    constructor
    · rintro ⟨⟨c, e⟩, assigned, taken⟩
      dsimp only at taken
      split at taken
      · cases taken
      · next free =>
        exact .inr ⟨c, e, (here c e).mp assigned, by simpa using free, (Option.some.inj taken).symm⟩
    · rintro (⟨blank', -⟩ | ⟨c, e, assigns, free, rfl⟩)
      · exact absurd (Text.trimStart_eq_nil_iff.mpr blank') solid
      · exact ⟨(c, e), (here c e).mpr assigns, by simp [free]⟩

theorem enter_of_blank (blank : Blank line) (slots : Slots) : enter line slots = some slots :=
  enter_eq_some_iff.mpr (.inl ⟨blank, rfl⟩)

theorem enter_append (blank : Blank indent) (line : List Char) : enter (indent ++ line) = enter line := by
  ext slots out
  rw [enter_eq_some_iff, enter_eq_some_iff]
  simp only [Text.blank_append, blank, true_and, assigns_append]

theorem enter_enter {line' : List Char} (first : enter line slots = some out) {out' : Slots}
    (second : enter line' out = some out') :
    ∃ between, enter line' slots = some between ∧ enter line between = some out' := by
  rcases enter_eq_some_iff.mp first with ⟨blank, rfl⟩ | ⟨c, e, assigns, free, rfl⟩
  · exact ⟨out', second, enter_of_blank blank out'⟩
  rcases enter_eq_some_iff.mp second with ⟨blank, rfl⟩ | ⟨c', e', assigns', free', rfl⟩
  · exact ⟨slots, enter_of_blank blank slots, first⟩
  have other : c' ≠ c := by
    rintro rfl
    rw [Slots.get_set] at free'
    cases free'
  rw [Slots.get_set_of_ne slots e other] at free'
  refine ⟨slots.set e' c', enter_eq_some_iff.mpr (.inr ⟨c', e', assigns', free', rfl⟩), ?_⟩
  rw [Slots.set_set slots e e' other]
  refine enter_eq_some_iff.mpr (.inr ⟨c, e, assigns, ?_, rfl⟩)
  rw [Slots.get_set_of_ne slots e' other.symm, free]

/-! ### All lines -/

/-- The components assigned after lines, if all of them are accepted. -/
def entered (lines : List (List Char)) (slots : Option Slots) : Option Slots :=
  lines.foldl (fun slots line => slots.bind (enter line)) slots

theorem entered_cons (line : List Char) (lines : List (List Char)) (slots : Option Slots) :
    entered (line :: lines) slots = entered lines (slots.bind (enter line)) := rfl

theorem entered_append (before after : List (List Char)) (slots : Option Slots) :
    entered (before ++ after) slots = entered after (entered before slots) := List.foldl_append

theorem entered_none (lines : List (List Char)) : entered lines none = none := by
  induction lines with
  | nil => rfl
  | cons line lines induction => exact induction

theorem toOption_readLines (offset : Nat) (lines : List (List Char)) (slots : Slots) :
    (readLines offset lines slots).toOption = entered lines (some slots) := by
  induction lines generalizing offset slots with
  | nil => rfl
  | cons line lines induction =>
      unfold readLines
      rw [toOption_bind, toOption_readLine, entered_cons, Option.bind_some]
      cases enter line slots with
      | none => rw [Option.bind_none, entered_none]
      | some out => rw [Option.bind_some, induction]

instance : RightCommutative fun (slots : Option Slots) line => slots.bind (enter line) where
  right_comm slots line line' := by
    cases slots with
    | none => rfl
    | some slots =>
        ext out
        simp only [Option.bind_some, Option.bind_eq_some_iff]
        exact ⟨fun ⟨_, first, second⟩ => enter_enter first second, fun ⟨_, first, second⟩ => enter_enter first second⟩

theorem entered_perm {lines' : List (List Char)} (same : lines.Perm lines') (slots : Option Slots) :
    entered lines slots = entered lines' slots := same.foldl_eq slots

theorem exists_enter (read : entered (line :: lines) (some slots) = some out) :
    ∃ between, enter line slots = some between ∧ entered lines (some between) = some out := by
  rw [entered_cons, Option.bind_some] at read
  cases first : enter line slots with
  | none =>
      rw [first, entered_none] at read
      cases read
  | some between => exact ⟨between, rfl, first ▸ read⟩

theorem entered_of_blank (blank : ∀ line ∈ lines, Blank line) (slots : Slots) :
    entered lines (some slots) = some slots := by
  induction lines with
  | nil => rfl
  | cons line lines induction =>
      obtain ⟨first, later⟩ := List.forall_mem_cons.mp blank
      rw [entered_cons, Option.bind_some, enter_of_blank first, induction later]

/-- Where both components are assigned, only blank lines are accepted. -/
theorem blank_of_entered (full : ∀ c, slots.get c ≠ none) (read : entered lines (some slots) = some out) :
    out = slots ∧ ∀ line ∈ lines, Blank line := by
  induction lines with
  | nil =>
      cases read
      exact ⟨rfl, List.forall_mem_nil _⟩
  | cons line lines induction =>
      obtain ⟨between, first, later⟩ := exists_enter read
      rcases enter_eq_some_iff.mp first with ⟨blank, rfl⟩ | ⟨c, e, -, free, -⟩
      · obtain ⟨same, blank'⟩ := induction later
        exact ⟨same, List.forall_mem_cons.mpr ⟨blank, blank'⟩⟩
      · exact absurd free (full c)

theorem get_of_entered (assigned : slots.get c = some e) (read : entered lines (some slots) = some out) :
    out.get c = some e := by
  induction lines generalizing slots with
  | nil =>
      cases read
      exact assigned
  | cons line lines induction =>
      obtain ⟨between, first, later⟩ := exists_enter read
      rcases enter_eq_some_iff.mp first with ⟨-, rfl⟩ | ⟨c', e', -, free, rfl⟩
      · exact induction assigned later
      · have other : c ≠ c' := by
          rintro rfl
          rw [assigned] at free
          cases free
        exact induction ((Slots.get_set_of_ne slots e' other).trans assigned) later

/-- The line of a component that the lines assign may as well come first. -/
theorem exists_assigns (free : slots.get c = none) (assigned : out.get c = some e)
    (read : entered lines (some slots) = some out) :
    ∃ line rest, lines.Perm (line :: rest) ∧ Assigns c e line ∧ entered rest (some (slots.set e c)) = some out := by
  induction lines generalizing slots with
  | nil =>
      cases read
      rw [free] at assigned
      cases assigned
  | cons first lines induction =>
      obtain ⟨between, entry, later⟩ := exists_enter read
      rcases enter_eq_some_iff.mp entry with ⟨blank, rfl⟩ | ⟨c', e', assigns, free', rfl⟩
      · obtain ⟨line, rest, moved, assigns, read'⟩ := induction free later
        refine ⟨line, first :: rest, (moved.cons first).trans (.swap line first rest), assigns, ?_⟩
        rw [entered_cons, Option.bind_some, enter_of_blank blank, read']
      · by_cases same : c' = c
        · subst same
          have value := get_of_entered (Slots.get_set slots e' c') later
          obtain rfl : e' = e := Option.some.inj (value.symm.trans assigned)
          exact ⟨first, lines, .refl _, assigns, later⟩
        · have free'' := (Slots.get_set_of_ne slots e' (Ne.symm same)).trans free
          obtain ⟨line, rest, moved, assigns', read'⟩ := induction free'' later
          refine ⟨line, first :: rest, (moved.cons first).trans (.swap line first rest), assigns', ?_⟩
          have entry' : enter first (slots.set e c) = some ((slots.set e c).set e' c') := by
            refine enter_eq_some_iff.mpr (.inr ⟨c', e', assigns, ?_, rfl⟩)
            rw [Slots.get_set_of_ne slots e same, free']
          rw [entered_cons, Option.bind_some, entry', Slots.set_set slots e e' same, read']

/-! ### Whole texts -/

/-- Lines of which one assigns the first component and one the second, every other line being blank. -/
def Describes (lines : List (List Char)) (c : Components) : Prop :=
  ∃ horizontal vertical others, lines.Perm (horizontal :: vertical :: others) ∧ Assigns .x c.x horizontal ∧
    Assigns .y c.y vertical ∧ ∀ line ∈ others, Blank line

theorem entered_eq_some_iff (c : Components) :
    entered lines (some ⟨none, none⟩) = some ⟨some c.x, some c.y⟩ ↔ Describes lines c := by
  constructor
  · intro read
    obtain ⟨first, rest, moved, horizontal, read'⟩ := exists_assigns (c := .x) rfl rfl read
    obtain ⟨second, others, moved', vertical, read''⟩ := exists_assigns (c := .y) rfl rfl read'
    refine ⟨first, second, others, moved.trans (moved'.cons first), horizontal, vertical, ?_⟩
    exact (blank_of_entered (fun c => by cases c <;> nofun) read'').2
  · rintro ⟨first, second, others, moved, horizontal, vertical, blank⟩
    rw [entered_perm moved, entered_cons, entered_cons, Option.bind_some,
      enter_eq_some_iff.mpr (.inr ⟨.x, c.x, horizontal, rfl, rfl⟩), Option.bind_some,
      enter_eq_some_iff.mpr (.inr ⟨.y, c.y, vertical, rfl, rfl⟩)]
    exact entered_of_blank blank _

def Slots.components? : Slots → Option Components
  | ⟨some x, some y⟩ => some ⟨x, y⟩
  | _ => none

theorem toOption_parse (text : String) :
    (parse text).toOption = (entered (Text.lines text) (some ⟨none, none⟩)).bind Slots.components? := by
  unfold parse
  rw [toOption_bind, toOption_readLines]
  congr 1
  ext slots c
  obtain ⟨_ | x, _ | y⟩ := slots <;> rfl

theorem parse_eq_ok_iff_describes {text : String} {c : Components} :
    parse text = .ok c ↔ Describes (Text.lines text) c := by
  rw [← toOption_eq_some_iff, toOption_parse, ← entered_eq_some_iff, Option.bind_eq_some_iff]
  constructor
  · rintro ⟨⟨_ | x, _ | y⟩, read, whole⟩
    all_goals cases whole
    exact read
  · exact fun read => ⟨_, read, rfl⟩

/-- A text reads as two components exactly if its lines describe them. Whether a text reads, and as which components, is
the same with a blank line more, with a line indented, and with the lines in another order. -/
theorem parse_by_lines :
    (∀ text c, parse text = .ok c ↔ Describes (Text.lines text) c) ∧
    (∀ text text' before after blank, Text.lines text = before ++ after → Text.lines text' = before ++ blank :: after →
      Blank blank → (parse text').toOption = (parse text).toOption) ∧
    (∀ text text' before line after indent, Text.lines text = before ++ line :: after →
      Text.lines text' = before ++ (indent ++ line) :: after → Blank indent →
      (parse text').toOption = (parse text).toOption) ∧
    ∀ text text', (Text.lines text').Perm (Text.lines text) → (parse text').toOption = (parse text).toOption := by
  refine ⟨fun text c => parse_eq_ok_iff_describes, ?_, ?_, ?_⟩
  · intro text text' before after line same same' blank
    rw [toOption_parse, toOption_parse, same, same', entered_append, entered_append, entered_cons]
    cases entered before (some ⟨none, none⟩) with
    | none => rfl
    | some slots => rw [Option.bind_some, enter_of_blank blank]
  · intro text text' before line after indent same same' blank
    rw [toOption_parse, toOption_parse, same, same', entered_append, entered_append, entered_cons, entered_cons,
      enter_append blank]
  · intro text text' moved
    rw [toOption_parse, toOption_parse, entered_perm moved]

theorem shear_by_lines :
    let shear : Components := ⟨Expr.y, .binary .mul Expr.x (.literal 2.0)⟩
    Describes (Text.lines "dx = y\ndy = x*2\n") shear ∧ parse "dx = y\n\u2003\r\ndy = x*2\n" = .ok shear ∧
      parse "dx = y\n\u0085\tdy = x*2\n" = .ok shear ∧ parse "dy = x*2\ndx = y\n" = .ok shear := by
  intro shear
  obtain ⟨described, blankLine, indented, reordered⟩ := parse_by_lines
  have source : shear.source = "dx = y\ndy = x*2\n" := by decide +kernel
  have read : parse "dx = y\ndy = x*2\n" = .ok shear := source ▸ parse_source (c := shear) (by decide)
  have lines : Text.lines "dx = y\ndy = x*2\n" = ["dx = y".toList, "dy = x*2".toList, []] := by decide +kernel
  have accept {text : String} (same : (parse text).toOption = (parse "dx = y\ndy = x*2\n").toOption) :
      parse text = .ok shear := by
    rw [← toOption_eq_some_iff, same, read]
    rfl
  refine ⟨(described _ _).mp read, accept ?_, accept ?_, accept ?_⟩
  · exact blankLine _ _ ["dx = y".toList] _ "\u2003\r".toList lines (by decide +kernel) (by decide)
  · exact indented _ _ ["dx = y".toList] _ _ "\u0085\t".toList lines (by decide +kernel) (by decide)
  · exact reordered _ _ (by decide +kernel)

end Components

end DriftField
