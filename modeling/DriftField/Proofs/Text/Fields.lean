import Mathlib
import DriftField.Proofs.Expr.Lines
/-!
What trimming leaves of a text, and the pieces between the separators of a text, each told without the way in which they
are found.
-/

namespace DriftField.Text

variable {separator : Char} {text core before after : List Char} {fields : List (List Char)}

/-- The text is the core with blanks around it, and the core neither starts nor ends with a blank. -/
structure Trimmed (text core : List Char) : Prop where
  padded : ∃ before after, Blank before ∧ Blank after ∧ text = before ++ core ++ after
  first : ∀ c ∈ core.head?, isBlank c = false
  last : ∀ c ∈ core.getLast?, isBlank c = false

theorem isBlank_head?_trimStart (text : List Char) : ∀ c ∈ (trimStart text).head?, isBlank c = false := by
  intro c first
  have stops := List.head?_dropWhile_not isBlank text
  unfold trimStart at first
  rw [Option.mem_def.mp first] at stops
  simpa using stops

theorem trimmed_trim (text : List Char) : Trimmed text (trim text) := by
  obtain ⟨indent, blank, split⟩ := exists_indent text
  obtain ⟨tail, blank', split'⟩ := exists_indent (trimStart text).reverse
  have rear : trimStart text = trim text ++ tail.reverse := by
    have whole := congrArg List.reverse split'
    rwa [List.reverse_reverse, List.reverse_append] at whole
  have last := isBlank_head?_trimStart (trimStart text).reverse
  refine ⟨⟨indent, tail.reverse, blank, fun c member => blank' c (List.mem_reverse.mp member), ?_⟩, ?_, ?_⟩
  · rw [List.append_assoc, ← rear]
    exact split
  · intro c first
    refine isBlank_head?_trimStart text c ?_
    rw [rear]
    exact List.mem_head?_append_of_mem_head? first
  · rwa [← List.getLast?_reverse] at last

theorem Trimmed.trim_eq (trimmed : Trimmed text core) : trim text = core := by
  obtain ⟨⟨before, after, blank, blank', rfl⟩, first, last⟩ := trimmed
  have start : trimStart (before ++ core ++ after) = if core = [] then [] else core ++ after := by
    split
    · next none =>
      subst none
      rw [List.append_nil, trimStart_eq_nil_iff, blank_append]
      exact ⟨blank, blank'⟩
    · next some =>
      rw [List.append_assoc]
      refine dropWhile_isBlank blank fun c here => first c ?_
      rwa [List.head?_append_of_ne_nil _ some] at here
  unfold trim trimEnd
  rw [start]
  split
  · next none =>
    subst none
    rfl
  · rw [List.reverse_append, dropWhile_isBlank (fun c member => blank' c (List.mem_reverse.mp member)), List.reverse_reverse]
    rwa [← List.getLast?_eq_head?_reverse]

theorem trim_eq_iff : trim text = core ↔ Trimmed text core :=
  ⟨fun same => same ▸ trimmed_trim text, Trimmed.trim_eq⟩

theorem cut?_eq_none_iff : cut? separator text = none ↔ separator ∉ text := by
  constructor
  · intro uncut member
    obtain ⟨before, after, rfl, absent⟩ := List.eq_append_cons_of_mem member
    rw [cut?_append absent] at uncut
    cases uncut
  · intro absent
    by_contra cut
    obtain ⟨r, cut⟩ := Option.ne_none_iff_exists'.mp cut
    obtain ⟨-, rfl⟩ := cut?_eq_some_iff.mp cut
    exact absent (List.mem_append_right _ List.mem_cons_self)

/-- The pieces of a text hold no separator and give the text when they are joined by it. -/
theorem pieces_eq_iff : pieces separator text = fields ↔
    fields ≠ [] ∧ (∀ field ∈ fields, separator ∉ field) ∧ text = List.intercalate [separator] fields := by
  constructor
  · rintro rfl
    fun_induction pieces separator text with
    | case1 text uncut =>
      refine ⟨List.cons_ne_nil _ _, List.forall_mem_singleton.mpr (cut?_eq_none_iff.mp uncut), ?_⟩
      rw [List.intercalate_singleton]
    | case2 text r cut _ induction =>
      obtain ⟨absent, split⟩ := cut?_eq_some_iff.mp cut
      obtain ⟨nonempty, absent', joined⟩ := induction
      refine ⟨List.cons_ne_nil _ _, List.forall_mem_cons.mpr ⟨absent, absent'⟩, ?_⟩
      rw [List.intercalate_cons_of_ne_nil nonempty, ← joined]
      simpa using split
  · rintro ⟨nonempty, absent, rfl⟩
    exact pieces_intercalate nonempty absent

end DriftField.Text
