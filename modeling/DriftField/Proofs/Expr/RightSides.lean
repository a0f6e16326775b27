import Mathlib
import DriftField.Proofs.Expr.Lines
import DriftField.Proofs.Expr.Places
/-!
The places that errors of field sources tell. A right side that is refused is refused in the source as it is alone, as
many bytes further on as stand before it; every other error is at the first character of a line that is no blank, or at
the end.
-/

namespace DriftField

open Text (Blank Boundary byteLength)

/-- Where a piece of a text is: behind the pieces before it, with a separator after each of them. -/
theorem Text.exists_after_piece {separator : Char} {text piece : List Char} {above below : List (List Char)}
    (cut : pieces separator text = above ++ piece :: below) :
    ∃ after, text = above.flatMap (· ++ [separator]) ++ (piece ++ after) := by
  induction above generalizing text with
  | nil =>
      by_cases several : separator ∈ text
      · obtain ⟨before, after, rfl, absent⟩ := List.eq_append_cons_of_mem several
        rw [pieces_append absent] at cut
        cases cut
        exact ⟨separator :: after, rfl⟩
      · rw [pieces_of_not_mem several] at cut
        cases cut
        exact ⟨[], (List.append_nil _).symm⟩
  | cons first above induction =>
      by_cases several : separator ∈ text
      · obtain ⟨before, after, rfl, absent⟩ := List.eq_append_cons_of_mem several
        rw [pieces_append absent] at cut
        obtain ⟨rfl, cut'⟩ := List.cons.inj cut
        obtain ⟨rest, rfl⟩ := induction cut'
        exact ⟨rest, by simp⟩
      · rw [pieces_of_not_mem several] at cut
        cases above <;> cases cut

namespace Components

variable {offset : Nat} {line left : List Char} {lines : List (List Char)} {c : Coordinate} {slots : Slots}
  {error : SourceError}

/-! ### One line -/

def lead (offset : Nat) (line : List Char) : Nat := offset + byteLength (line.takeWhile Text.isBlank)

theorem boundary_lead (offset : Nat) (line : List Char) : Boundary offset line (lead offset line) :=
  ⟨line.takeWhile Text.isBlank, line.dropWhile Text.isBlank, List.takeWhile_append_dropWhile.symm, rfl⟩

theorem lead_add (offset : Nat) (line : List Char) :
    lead offset line + byteLength (Text.trimStart line) = offset + byteLength line := by
  unfold lead Text.trimStart
  rw [Nat.add_assoc, ← Text.byteLength_append, List.takeWhile_append_dropWhile]

theorem trimStart_append_equals (left right : List Char) :
    Text.trimStart (left ++ '=' :: right) = Text.trimStart left ++ '=' :: right := by
  unfold Text.trimStart
  rw [List.dropWhile_append]
  split
  · next blank =>
    rw [List.isEmpty_iff.mp blank]
    rfl
  · rfl

theorem readLine_of_equals (absent : '=' ∉ left) (right : List Char) :
    readLine offset (left ++ '=' :: right) slots =
      match ofName? (String.ofList (Text.trim left)) with
      | none => .error ⟨lead offset (left ++ '=' :: right), .unknownComponent (String.ofList (Text.trim left))⟩
      | some c =>
          if (slots.get c).isSome then .error ⟨lead offset (left ++ '=' :: right), .assignedTwice⟩
          else do
            let e ← Expr.ofText (offset + byteLength (left ++ ['='])) right
            return slots.set e c := by
  obtain ⟨indent, blank, same⟩ := Text.exists_indent left
  have absent' : '=' ∉ Text.trimStart left := fun member => absent (same ▸ List.mem_append_right _ member)
  have trimmed : Text.trim (Text.trimStart left) = Text.trim left := by
    conv_rhs => rw [same, Text.trim_append blank]
  have place : lead offset (left ++ '=' :: right) + byteLength (Text.trimStart left) + 1 =
      offset + byteLength (left ++ ['=']) := by
    have whole := lead_add offset (left ++ '=' :: right)
    have one : '='.utf8Size = 1 := by decide
    simp only [trimStart_append_equals, Text.byteLength_append, Text.byteLength_cons, Text.byteLength_nil, one] at whole ⊢
    omega
  rw [← place]
  unfold readLine
  dsimp only
  rw [trimStart_append_equals, if_neg (by simp), Text.cut?_append absent', ← trimmed]
  rfl

/-- A right side in a line is refused as it is alone, as far on as it is from the start of the line; elsewhere the line
is refused where it starts, blanks aside. -/
theorem readLine_error (refused : readLine offset line slots = .error error) :
    (error.offset = lead offset line ∧ error.cause.isOfLines = true) ∨
      ∃ left right c, line = left ++ '=' :: right ∧ '=' ∉ left ∧ Text.trim left = (nameOf c).toList ∧
        slots.get c = none ∧ Expr.ofText (offset + byteLength (left ++ ['='])) right = .error error := by
  by_cases assigns : '=' ∈ line
  · obtain ⟨left, right, rfl, absent⟩ := List.eq_append_cons_of_mem assigns
    rw [readLine_of_equals absent] at refused
    split at refused
    · cases refused
      exact .inl ⟨rfl, rfl⟩
    · next c named =>
      split at refused
      · cases refused
        exact .inl ⟨rfl, rfl⟩
      · next free =>
        refine .inr ⟨left, right, c, rfl, absent, ?_, by simpa using free, ?_⟩
        · rw [← ofName?_eq_some_iff.mp named, String.toList_ofList]
        · cases read : Expr.ofText (offset + byteLength (left ++ ['='])) right with
          | ok e =>
              rw [read] at refused
              cases refused
          | error error' =>
              rw [read] at refused
              cases refused
              rfl
  · obtain ⟨indent, blank, same⟩ := Text.exists_indent line
    have absent : '=' ∉ Text.trimStart line := fun member => assigns (same ▸ List.mem_append_right _ member)
    have uncut : Text.cut? '=' (Text.trimStart line) = none := by
      cases cut : Text.cut? '=' (Text.trimStart line) with
      | none => rfl
      | some cut' =>
          have split := (Text.cut?_eq_some_iff.mp cut).2
          rw [split] at absent
          simp at absent
    unfold readLine at refused
    dsimp only at refused
    rw [uncut] at refused
    split at refused
    · cases refused
    · cases refused
      exact .inl ⟨rfl, rfl⟩

theorem boundary_of_readLine (refused : readLine offset line slots = .error error) :
    Boundary offset line error.offset := by
  obtain ⟨first, -⟩ | ⟨left, right, c, rfl, -, -, -, refused'⟩ := readLine_error refused
  · rw [first]
    exact boundary_lead offset line
  · have within := (Expr.ofText_error refused').1.past
    rwa [List.append_assoc] at within

/-! ### All lines -/

def unlines (lines : List (List Char)) : List Char := lines.flatMap (· ++ ['\n'])

theorem readLines_append (offset : Nat) (above below : List (List Char)) (slots : Slots) :
    readLines offset (above ++ below) slots =
      readLines offset above slots >>= readLines (offset + byteLength (unlines above)) below := by
  induction above generalizing offset slots with
  | nil => rfl
  | cons line above induction =>
      have one : '\n'.utf8Size = 1 := by decide
      have place : offset + byteLength (unlines (line :: above)) =
          offset + byteLength line + 1 + byteLength (unlines above) := by
        unfold unlines
        rw [List.flatMap_cons, Text.byteLength_append, Text.byteLength_append, Text.byteLength_cons, one,
          Text.byteLength_nil]
        omega
      rw [List.cons_append, readLines, readLines, place]
      cases readLine offset line slots with
      | error error => rfl
      | ok slots' => exact induction _ _

theorem readLines_error (refused : readLines offset lines slots = .error error) :
    ∃ above line below assigned, lines = above ++ line :: below ∧ readLines offset above slots = .ok assigned ∧
      readLine (offset + byteLength (unlines above)) line assigned = .error error := by
  induction lines using List.reverseRecOn with
  | nil => cases refused
  | append_singleton above line induction =>
      rw [readLines_append] at refused
      cases read : readLines offset above slots with
      | error error' =>
          rw [read] at refused
          cases refused
          obtain ⟨above', line', below, assigned, rfl, read', refused'⟩ := induction read
          exact ⟨above', line', below ++ [line], assigned, by simp, read', refused'⟩
      | ok assigned =>
          rw [read] at refused
          refine ⟨above, line, [], assigned, rfl, read, ?_⟩
          change (readLine _ line assigned >>= fun slots => .ok slots) = _ at refused
          cases last : readLine (offset + byteLength (unlines above)) line assigned with
          | error error' =>
              rw [last] at refused
              cases refused
              rfl
          | ok slots' =>
              rw [last] at refused
              cases refused

/-! ### Whole texts -/

/-- The text behind an equals sign, where the lines above are accepted and have not assigned the component whose name
stands before that sign. -/
structure RightSide (text : String) where
  above : List (List Char)
  left : List Char
  right : List Char
  below : List (List Char)
  component : Coordinate
  assigned : Slots
  lines : Text.lines text = above ++ (left ++ '=' :: right) :: below
  absent : '=' ∉ left
  named : Text.trim left = (nameOf component).toList
  accepted : readLines 0 above ⟨none, none⟩ = .ok assigned
  free : assigned.get component = none

namespace RightSide

variable {text : String} (r : RightSide text)

def before : List Char := unlines r.above ++ (r.left ++ ['='])

theorem before_isPrefix : r.before ++ r.right <+: text.toList := by
  obtain ⟨after, same⟩ := Text.exists_after_piece r.lines
  rw [same]
  exact ⟨after, by simp [before, unlines]⟩

theorem parse_eq (refused : Expr.parse (String.ofList r.right) = .error error) :
    parse text = .error ⟨byteLength r.before + error.offset, error.cause⟩ := by
  have named : ofName? (String.ofList (Text.trim r.left)) = some r.component := by
    rw [r.named, String.ofList_toList, ofName?_eq_some_iff]
  have refused' : Expr.ofText 0 r.right = .error error := by
    unfold Expr.parse at refused
    rwa [String.toList_ofList] at refused
  have here : readLine (0 + byteLength (unlines r.above)) (r.left ++ '=' :: r.right) r.assigned =
      .error ⟨byteLength r.before + error.offset, error.cause⟩ := by
    rw [readLine_of_equals r.absent, named]
    dsimp only
    rw [r.free, Expr.ofText_eq, refused', Nat.zero_add, ← Text.byteLength_append]
    rfl
  have whole : readLines 0 (Text.lines text) ⟨none, none⟩ =
      .error ⟨byteLength r.before + error.offset, error.cause⟩ := by
    rw [r.lines, readLines_append, r.accepted]
    change readLines _ (_ :: _) _ = _
    rw [readLines, here]
    rfl
  unfold Text.lines at whole
  unfold parse
  rw [whole]
  rfl

end RightSide

theorem parse_error {text : String} (refused : parse text = .error error) :
    Boundary 0 text.toList error.offset ∧
      (error.cause.isOfLines = true ∨ ∃ (r : RightSide text) (inner : SourceError),
        Expr.parse (String.ofList r.right) = .error inner ∧
          error = ⟨byteLength r.before + inner.offset, inner.cause⟩) := by
  unfold parse at refused
  change (readLines 0 (Text.lines text) ⟨none, none⟩ >>= _) = _ at refused
  cases read : readLines 0 (Text.lines text) ⟨none, none⟩ with
  | ok slots =>
      rw [read] at refused
      obtain ⟨_ | x, _ | y⟩ := slots <;> cases refused
      all_goals
        refine ⟨?_, .inl rfl⟩
        have last := Boundary.last 0 text.toList
        rwa [Nat.zero_add] at last
  | error error' =>
      rw [read] at refused
      cases refused
      obtain ⟨above, line, below, assigned, lines, accepted, refused'⟩ := readLines_error read
      constructor
      · obtain ⟨after, same⟩ := Text.exists_after_piece lines
        rw [same]
        exact ((boundary_of_readLine refused').within after).past
      · obtain ⟨-, ofLines⟩ | ⟨left, right, c, rfl, absent, named, free, inside⟩ := readLine_error refused'
        · exact .inl ofLines
        · let r : RightSide text := ⟨above, left, right, below, c, assigned, lines, absent, named, accepted, free⟩
          rw [Expr.ofText_eq] at inside
          cases alone : Expr.ofText 0 right with
          | ok e =>
              rw [alone] at inside
              cases inside
          | error inner =>
              rw [alone] at inside
              refine .inr ⟨r, inner, ?_, ?_⟩
              · unfold Expr.parse
                rw [String.toList_ofList]
                exact alone
              · have place : byteLength r.before = 0 + byteLength (unlines above) + byteLength (left ++ ['=']) := by
                  rw [Nat.zero_add, ← Text.byteLength_append]
                  rfl
                rw [place]
                exact (Except.error.inj inside).symm

/-- Errors are at places between characters of the whole text. A right side that is refused alone is refused in a source
with the same cause, as many bytes further on as stand before it there; and every error of a source that does not concern
its lines is one of a right side. -/
theorem error_places :
    (∀ text error, Expr.parse text = .error error →
      error.offset ≤ text.utf8ByteSize ∧ String.Pos.Raw.IsValid text ⟨error.offset⟩) ∧
    (∀ text error, parse text = .error error →
      error.offset ≤ text.utf8ByteSize ∧ String.Pos.Raw.IsValid text ⟨error.offset⟩) ∧
    (∀ text (r : RightSide text), r.before ++ r.right <+: text.toList ∧
      ∀ error, Expr.parse (String.ofList r.right) = .error error →
        parse text = .error ⟨byteLength r.before + error.offset, error.cause⟩) ∧
    ∀ text error, parse text = .error error → error.cause.isOfLines = true ∨
      ∃ (r : RightSide text) (inner : SourceError), Expr.parse (String.ofList r.right) = .error inner ∧
        error = ⟨byteLength r.before + inner.offset, inner.cause⟩ := by
  refine ⟨?_, ?_, ?_, ?_⟩
  · intro text error refused
    have boundary := (Expr.ofText_error refused).1
    exact ⟨boundary.le_utf8ByteSize, boundary.isValid⟩
  · intro text error refused
    have boundary := (parse_error refused).1
    exact ⟨boundary.le_utf8ByteSize, boundary.isValid⟩
  · intro text r
    exact ⟨r.before_isPrefix, fun error => r.parse_eq⟩
  · intro text error refused
    exact (parse_error refused).2

/-- The right side starts at byte 14, behind a blank of three bytes, and the letter is five bytes into it. -/
theorem accented_letter_place :
    let text := "dx = y\n\u2003dy = x + é"
    (5 ≤ " x + é".utf8ByteSize ∧ String.Pos.Raw.IsValid " x + é" ⟨5⟩) ∧
      (19 ≤ text.utf8ByteSize ∧ String.Pos.Raw.IsValid text ⟨19⟩) ∧
      parse text = .error ⟨14 + 5, .strayCharacter 'é'⟩ ∧
      ∃ (r : RightSide text) (inner : SourceError), Expr.parse (String.ofList r.right) = .error inner ∧
        ⟨19, .strayCharacter 'é'⟩ = (⟨byteLength r.before + inner.offset, inner.cause⟩ : SourceError) := by
  intro text
  obtain ⟨alone, whole, shifted, traced⟩ := error_places
  have refused : Expr.parse " x + é" = .error ⟨5, .strayCharacter 'é'⟩ := by cbv
  let r : RightSide text :=
    { above := ["dx = y".toList]
      left := "\u2003dy ".toList
      right := " x + é".toList
      below := []
      component := .y
      assigned := ⟨some Expr.y, none⟩
      lines := by decide +kernel
      absent := by decide
      named := by decide
      accepted := by cbv
      free := rfl }
  have refused' : parse text = .error ⟨14 + 5, .strayCharacter 'é'⟩ := (shifted text r).2 _ refused
  exact ⟨alone _ _ refused, whole _ _ refused', refused', (traced _ _ refused').resolve_left Bool.false_ne_true⟩

end Components

end DriftField
