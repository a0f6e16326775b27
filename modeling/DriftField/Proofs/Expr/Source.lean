import Mathlib
import DriftField.Expr.Source
import DriftField.Proofs.Expr.RoundTrip
/-!
Field sources read back: each component stands on a line of its own, and no line holds a line break.
-/

namespace DriftField

theorem Text.cut?_append {separator : Char} {before : List Char} (absent : separator ∉ before)
    (after : List Char) :
    cut? separator (before ++ separator :: after) = some (before, after) := by
  have differ : ∀ c ∈ before, decide (c ≠ separator) = true := by
    intro c member
    simp only [decide_eq_true_eq]
    rintro rfl
    exact absent member
  unfold cut?
  rw [List.dropWhile_append_of_pos differ, List.takeWhile_append_of_pos differ]
  simp

theorem Text.pieces_append {separator : Char} {before : List Char} (absent : separator ∉ before)
    (after : List Char) :
    pieces separator (before ++ separator :: after) = before :: pieces separator after := by
  rw [pieces]
  split
  · next uncut =>
    rw [cut?_append absent] at uncut
    cases uncut
  · next cut =>
    rw [cut?_append absent] at cut
    cases cut
    rfl

theorem Text.pieces_nil (separator : Char) : pieces separator [] = [[]] := by
  rw [pieces]
  simp [cut?]

namespace Expr

/-! The printer writes no line break. -/

theorem newline_not_mem_plain (v : Float) : '\n' ∉ Decimal.plain v := by
  intro member
  rcases Decimal.mem_plain member with digit | letter
  · cases digit
  · exact absurd letter (by decide)

theorem newline_not_mem_unary (f : Unary) : '\n' ∉ f.name.toList := by
  cases f <;> simp [Unary.name]

theorem newline_not_mem_choice (f : Choice) : '\n' ∉ f.name.toList := by
  cases f <;> simp [Choice.name]

theorem newline_not_mem_symbol (op : Operator) : '\n' ∉ op.symbol.toList := by
  cases op <;> simp [Operator.symbol]

theorem newline_of_mem_enclose {inside : Bool} {write : List Char → List Char} {rest : List Char}
    (passes : ∀ rest, '\n' ∈ write rest → '\n' ∈ rest)
    (member : '\n' ∈ enclose inside write rest) : '\n' ∈ rest := by
  cases inside with
  | false => exact passes rest member
  | true => simpa using passes (')' :: rest) (by simpa [enclose] using member)

theorem newline_of_mem_writeOnto {e : Expr} {least : Nat} {rest : List Char}
    (member : '\n' ∈ writeOnto least e rest) : '\n' ∈ rest := by
  induction e generalizing least rest with
  | literal v => simpa [writeOnto, newline_not_mem_plain] using member
  | coordinate c => cases c <;> simpa [writeOnto] using member
  | call f a argument =>
      have inside := argument (by simpa [writeOnto, newline_not_mem_unary] using member)
      simpa using inside
  | choose f a b first second =>
      have inside := first (by simpa [writeOnto, newline_not_mem_choice] using member)
      have inside' := second (by simpa using inside)
      simpa using inside'
  | binary op a b left right =>
      refine newline_of_mem_enclose (fun rest member => ?_) member
      have after := left member
      exact right (by simpa [newline_not_mem_symbol] using after)
  | ifThen c a b condition yes no =>
      refine newline_of_mem_enclose (fun rest member => ?_) member
      have question := condition member
      have colon := yes (by simpa using question)
      exact no (by simpa using colon)

theorem newline_not_mem_text (e : Expr) : '\n' ∉ e.text.toList := by
  unfold text
  rw [String.toList_ofList]
  exact fun member => List.not_mem_nil (newline_of_mem_writeOnto member)

theorem ofText_text {offset : Nat} {e : Expr} (shallow : e.depth ≤ greatestDepth)
    (finite : e.literalsFinite = true) : ofText offset (' ' :: e.text.toList) = .ok e := by
  unfold text
  rw [String.toList_ofList]
  have lexed := (@Lexes.gap ' ' (by decide) _).trans (lexes_writeOnto e 0 [] .nil)
  exact (ofText_of_lexes lexed).mpr ⟨rfl, shallow, finite⟩

end Expr

namespace Components

def line (c : Coordinate) (e : Expr) : List Char :=
  (nameOf c).toList ++ ' ' :: '=' :: ' ' :: e.text.toList

theorem readLine_line {offset : Nat} {c : Coordinate} {e : Expr} {slots : Slots}
    (free : slots.get c = none) (shallow : e.depth ≤ Expr.greatestDepth)
    (finite : e.literalsFinite = true) :
    readLine offset (line c e) slots = .ok (slots.set e c) := by
  have body : Text.trimStart (line c e) = line c e := by
    cases c <;> rfl
  have assignment : Text.cut? '=' (line c e) =
      some ((nameOf c).toList ++ [' '], ' ' :: e.text.toList) := by
    have cut := @Text.cut?_append '=' ((nameOf c).toList ++ [' ']) (by cases c <;> decide)
      (' ' :: e.text.toList)
    rw [← cut]
    unfold line
    rw [List.append_assoc, List.singleton_append]
  have name : ofName? (String.ofList (Text.trim ((nameOf c).toList ++ [' ']))) = some c := by
    cases c <;> rfl
  unfold readLine
  simp only [body]
  rw [if_neg (by cases c <;> simp [line]), assignment]
  simp only [name, free, Expr.ofText_text shallow finite]
  rfl

theorem toList_source (c : Components) :
    c.source.toList = line .x c.x ++ '\n' :: (line .y c.y ++ '\n' :: []) := by
  simp [source, line, nameOf]

theorem newline_not_mem_line (c : Coordinate) (e : Expr) : '\n' ∉ line c e := by
  have absent := e.newline_not_mem_text
  cases c <;> simp [line, nameOf, absent]

theorem pieces_source (c : Components) :
    Text.pieces '\n' c.source.toList = [line .x c.x, line .y c.y, []] := by
  rw [toList_source, Text.pieces_append (newline_not_mem_line _ _),
    Text.pieces_append (newline_not_mem_line _ _), Text.pieces_nil]

theorem isSound_iff (c : Components) :
    c.isSound = true ↔ c.size ≤ greatestSize ∧ c.x.depth ≤ Expr.greatestDepth ∧
      c.y.depth ≤ Expr.greatestDepth ∧ c.x.literalsFinite = true ∧ c.y.literalsFinite = true := by
  simp [isSound, and_assoc]

theorem parse_source_of_shallow {c : Components} (shallow : c.x.depth ≤ Expr.greatestDepth)
    (shallow' : c.y.depth ≤ Expr.greatestDepth) (finite : c.x.literalsFinite = true)
    (finite' : c.y.literalsFinite = true) : parse c.source = .ok c := by
  have first : readLine 0 (line .x c.x) ⟨none, none⟩ = .ok ⟨some c.x, none⟩ :=
    readLine_line rfl shallow finite
  have second (offset : Nat) :
      readLine offset (line .y c.y) ⟨some c.x, none⟩ = .ok ⟨some c.x, some c.y⟩ :=
    readLine_line rfl shallow' finite'
  have third (offset : Nat) (slots : Slots) : readLine offset [] slots = .ok slots := rfl
  have lines : readLines 0 [line .x c.x, line .y c.y, []] ⟨none, none⟩ =
      .ok ⟨some c.x, some c.y⟩ := by
    simp only [readLines, first, second, third, bind, Except.bind]
  unfold parse
  rw [pieces_source, lines]
  rfl

theorem parse_source {c : Components} (sound : c.isSound = true) : parse c.source = .ok c := by
  obtain ⟨-, shallow, shallow', finite, finite'⟩ := c.isSound_iff.mp sound
  exact parse_source_of_shallow shallow shallow' finite finite'

end Components

namespace FormulaField

theorem of?_toComponents (f : FormulaField) : of? f.toComponents = some f :=
  dif_pos f.sound

theorem ofSource_source (f : FormulaField) : ofSource f.source = .ok (some f) := by
  unfold ofSource
  rw [Components.parse_source f.sound]
  exact congrArg Except.ok f.of?_toComponents

/-- A field that was made of two expressions reloads from its source as the same field, and whatever text a field
was read from, its source is another text of that field. -/
theorem source_reloads :
    (∀ c f, of? c = some f → f.toComponents = c ∧ ofSource f.source = .ok (some f)) ∧
    (∀ code f, ofSource code = .ok (some f) → ofSource f.source = .ok (some f)) := by
  constructor
  · intro c f made
    refine ⟨?_, f.ofSource_source⟩
    unfold of? at made
    split at made
    · cases made
      rfl
    · cases made
  · intro code f _
    exact f.ofSource_source

theorem shear_reloads :
    ∃ f, of? ⟨Expr.y, .binary .mul Expr.x (.literal 2.0)⟩ = some f ∧
      ofSource f.source = .ok (some f) := by
  have sound : Components.isSound ⟨Expr.y, .binary .mul Expr.x (.literal 2.0)⟩ = true := by
    decide
  have made := of?_toComponents ⟨_, sound⟩
  exact ⟨_, made, (source_reloads.1 _ _ made).2⟩

end FormulaField

end DriftField
