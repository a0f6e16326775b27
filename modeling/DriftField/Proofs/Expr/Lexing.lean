import Mathlib
import DriftField.Expr.Printer
import DriftField.Expr.Token
import DriftField.Proofs.Decimal.Reading
/-!
The tokens of printed expressions: what each part of the printer writes splits into the tokens of that part, whatever
follows it.
-/

namespace DriftField.Expr

/-- From any place on, the text `cs` up to `rest` splits into the tokens `ts`. -/
def Lexes (cs rest : List Char) (ts : List Token) : Prop :=
  ∀ offset, ∃ stop placed, placed.map Placed.token = ts ∧
    tokens offset cs = (tokens stop rest).map (placed ++ ·)

theorem Lexes.refl (cs : List Char) : Lexes cs cs [] := by
  intro offset
  refine ⟨offset, [], rfl, ?_⟩
  cases tokens offset cs <;> rfl

theorem Lexes.trans {cs between rest : List Char} {ts us : List Token}
    (first : Lexes cs between ts) (second : Lexes between rest us) :
    Lexes cs rest (ts ++ us) := by
  intro offset
  obtain ⟨middle, before, spelled, read⟩ := first offset
  obtain ⟨stop, after, spelled', read'⟩ := second middle
  refine ⟨stop, before ++ after, ?_, ?_⟩
  · rw [List.map_append, spelled, spelled']
  · rw [read, read']
    cases tokens stop rest with
    | error e => rfl
    | ok placed => simp only [Except.map, List.append_assoc]

/-- One token, whose length may depend on the text but not on its place. -/
theorem Lexes.of_cons {cs rest : List Char} {t : Token}
    (read : ∀ offset, ∃ stop, tokens offset cs = (tokens stop rest).map (⟨offset, t⟩ :: ·)) :
    Lexes cs rest [t] := by
  intro offset
  obtain ⟨stop, read⟩ := read offset
  exact ⟨stop, [⟨offset, t⟩], rfl, read⟩

theorem Lexes.gap {c : Char} (gap : isGap c = true) (rest : List Char) :
    Lexes (c :: rest) rest [] := by
  intro offset
  refine ⟨offset + 1, [], rfl, ?_⟩
  rw [tokens.eq_def]
  simp only [if_pos gap]
  cases tokens (offset + 1) rest <;> rfl

theorem Lexes.single {c : Char} {t : Token} (single : single? c = some t)
    (visible : isGap c = false) (rest : List Char) : Lexes (c :: rest) rest [t] := by
  refine .of_cons fun offset => ⟨offset + 1, ?_⟩
  rw [tokens.eq_def]
  simp only [visible, Bool.false_eq_true, if_false, single]

theorem Lexes.equals (rest : List Char) :
    Lexes ('=' :: '=' :: rest) rest [.operator .eq] := by
  refine .of_cons fun offset => ⟨offset + 2, ?_⟩
  rw [tokens]
  simp [isGap, single?]

theorem Lexes.symbol (op : Operator) (rest : List Char) :
    Lexes (op.symbol.toList ++ rest) rest [.operator op] := by
  cases op with
  | eq => exact .equals rest
  | _ => exact .single rfl rfl rest

theorem Lexes.mark (m : Mark) (rest : List Char) :
    Lexes (m.spelling.toList ++ rest) rest [.mark m] := by
  cases m <;> exact .single rfl rfl rest

def Parted (rest : List Char) : Prop := ∀ c ∈ rest.head?, isNamePart c = false ∧ c ≠ '.'

theorem Parted.cons {c : Char} (parts : isNamePart c = false) (noPoint : c ≠ '.')
    (rest : List Char) : Parted (c :: rest) := by
  intro d head
  cases head
  exact ⟨parts, noPoint⟩

theorem Parted.nil : Parted [] := by
  intro d head
  cases head

theorem Parted.space (rest : List Char) : Parted (' ' :: rest) := .cons rfl (by decide) rest

theorem Parted.symbol (op : Operator) (rest : List Char) :
    Parted (op.symbol.toList ++ rest) := by
  cases op <;> exact .cons rfl (by decide) _

theorem Parted.mark (m : Mark) (rest : List Char) : Parted (m.spelling.toList ++ rest) := by
  cases m <;> exact .cons rfl (by decide) _

theorem isAlphanum_of_isDigit {c : Char} (digit : Text.isDigit c = true) :
    c.isAlphanum = true := by
  rw [Text.isDigit_eq] at digit
  simp [Char.isAlphanum, digit]

theorem Parted.isNumeric {rest : List Char} (parted : Parted rest) :
    ∀ c ∈ rest.head?, isNumeric c = false := by
  intro c head
  obtain ⟨parts, noPoint⟩ := parted c head
  have noDigit : Text.isDigit c = false := by
    by_contra digit
    simp [isNamePart, isAlphanum_of_isDigit (Bool.eq_true_of_not_eq_false digit)] at parts
  simp [Expr.isNumeric, noDigit, noPoint]

theorem Parted.exponent {rest : List Char} (parted : Parted rest) : exponent rest = [] := by
  unfold Expr.exponent
  split
  · next letter sign rest =>
    rw [if_neg]
    intro starts
    have parts := (parted letter rfl).1
    rcases Bool.or_eq_true_iff.mp starts with lower | upper
    · rw [of_decide_eq_true lower] at parts
      revert parts
      decide
    · rw [of_decide_eq_true upper] at parts
      revert parts
      decide
  · rfl

theorem takeWhile_of_parted {p : Char → Bool} {cs rest : List Char} (holds : ∀ c ∈ cs, p c = true)
    (stops : ∀ c ∈ rest.head?, p c = false) : (cs ++ rest).takeWhile p = cs := by
  rw [List.takeWhile_append_of_pos holds]
  cases rest with
  | nil => simp
  | cons c rest => simp [stops c rfl]

theorem dropWhile_of_parted {p : Char → Bool} {cs rest : List Char} (holds : ∀ c ∈ cs, p c = true)
    (stops : ∀ c ∈ rest.head?, p c = false) : (cs ++ rest).dropWhile p = rest := by
  rw [List.dropWhile_append_of_pos holds]
  cases rest with
  | nil => simp
  | cons c rest => simp [stops c rfl]

theorem visible_of_isNamePart {c : Char} (part : isNamePart c = true ∨ c = '.') :
    isGap c = false ∧ single? c = none ∧ c ≠ '=' := by
  have other : ∀ d, isNamePart d = false → d ≠ '.' → c ≠ d := by
    rintro d parts noPoint rfl
    rcases part with part | point
    · exact Bool.false_ne_true (parts.symm.trans part)
    · exact noPoint point
  refine ⟨?_, ?_, other _ (by decide) (by decide)⟩
  · simp [isGap, other ' ' (by decide) (by decide), other '\t' (by decide) (by decide),
      other '\r' (by decide) (by decide)]
  · simp [single?, other '+' (by decide) (by decide), other '-' (by decide) (by decide),
      other '*' (by decide) (by decide), other '/' (by decide) (by decide),
      other '%' (by decide) (by decide), other '?' (by decide) (by decide),
      other ':' (by decide) (by decide), other ',' (by decide) (by decide),
      other '(' (by decide) (by decide), other ')' (by decide) (by decide)]

theorem Lexes.number {cs rest : List Char} {v : Float} (numeric : ∀ c ∈ cs, isNumeric c = true)
    (nonempty : cs ≠ []) (value : valueOf cs = .ok v) (parted : Parted rest) :
    Lexes (cs ++ rest) rest [.number v] := by
  obtain ⟨c, more, rfl⟩ := List.exists_cons_of_ne_nil nonempty
  have spelling : numeral (c :: more ++ rest) = c :: more := by
    unfold numeral
    rw [takeWhile_of_parted numeric parted.isNumeric, dropWhile_of_parted numeric parted.isNumeric,
      parted.exponent, List.append_nil]
  have starts : isNumeric c = true := numeric c List.mem_cons_self
  have part : isNamePart c = true ∨ c = '.' := by
    rcases Bool.or_eq_true_iff.mp starts with digit | point
    · exact .inl (by simp [isNamePart, isAlphanum_of_isDigit digit])
    · exact .inr (of_decide_eq_true point)
  obtain ⟨visible, several, unequal⟩ := visible_of_isNamePart part
  refine .of_cons fun offset => ⟨offset + (c :: more).length, ?_⟩
  rw [List.cons_append] at spelling ⊢
  rw [tokens.eq_def]
  simp only [visible, Bool.false_eq_true, if_false, several, if_neg unequal, dif_pos starts, spelling,
    value]
  rw [← List.cons_append, List.drop_left]

theorem isNamePart_of_isNameStart {c : Char} (starts : isNameStart c = true) :
    isNamePart c = true := by
  rcases Bool.or_eq_true_iff.mp starts with letter | underscore
  · simp [isNamePart, Char.isAlphanum, letter]
  · simp [isNamePart, of_decide_eq_true underscore]

theorem not_isDigit_of_isAlpha {c : Char} (letter : c.isAlpha = true) : c.isDigit = false := by
  simp only [Char.isAlpha, Char.isUpper, Char.isLower, Char.isDigit, Bool.or_eq_true, Bool.and_eq_true,
    Bool.and_eq_false_iff, decide_eq_true_eq, decide_eq_false_iff_not, UInt32.le_iff_toNat_le, ge_iff_le] at letter ⊢
  simp at letter ⊢
  omega

theorem isNumeric_of_isNameStart {c : Char} (starts : isNameStart c = true) :
    isNumeric c = false := by
  rcases Bool.or_eq_true_iff.mp starts with letter | underscore
  · have noPoint : c ≠ '.' := by
      rintro rfl
      revert letter
      decide
    simp [isNumeric, Text.isDigit_eq, not_isDigit_of_isAlpha letter, noPoint]
  · rw [of_decide_eq_true underscore]
    decide

theorem Lexes.name {c : Char} {cs rest : List Char} (starts : isNameStart c = true)
    (parts : cs.all isNamePart = true) (parted : Parted rest) :
    Lexes (c :: cs ++ rest) rest [.name (String.ofList (c :: cs))] := by
  have stops : ∀ d ∈ rest.head?, isNamePart d = false := fun d head => (parted d head).1
  have notNumeric : isNumeric c = false := isNumeric_of_isNameStart starts
  have part : isNamePart c = true := isNamePart_of_isNameStart starts
  obtain ⟨visible, several, unequal⟩ := visible_of_isNamePart (.inl part)
  refine .of_cons fun offset => ⟨offset + (c :: cs).length, ?_⟩
  rw [List.cons_append, tokens.eq_def]
  simp only [visible, Bool.false_eq_true, if_false, several, if_neg unequal, notNumeric, dite_false,
    if_pos starts,
    takeWhile_of_parted (List.all_eq_true.mp parts) stops]
  rw [← List.cons_append, List.drop_left]

end DriftField.Expr
