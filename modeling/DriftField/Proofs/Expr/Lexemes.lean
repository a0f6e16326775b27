import Mathlib
import DriftField.Proofs.Expr.Lexing
import DriftField.Proofs.Expr.Tokens
import DriftField.Proofs.Text.Boundary
/-!
The spelling of each token. A text is the spellings of its tokens with gaps between them, up to its end or to the place
where it is refused; so every place that is told lies between two characters.
-/

namespace DriftField

def SourceCause.isOfLines : SourceCause → Bool
  | .noComponent | .unknownComponent _ | .assignedTwice | .unassigned _ => true
  | _ => false

namespace Expr

open Text (byteLength Boundary)

def isWordPart (c : Char) : Bool := isNamePart c || c = '.' || c = '+' || c = '-'

inductive Lexeme : List Char → Token → Prop
  | single {c : Char} {t : Token} (known : single? c = some t) : Lexeme [c] t
  | equals : Lexeme ['=', '='] (.operator .eq)
  | number {cs : List Char} (v : Float) (parts : ∀ c ∈ cs, isWordPart c = true) : Lexeme cs (.number v)
  | name {cs : List Char} (s : String) (parts : ∀ c ∈ cs, isWordPart c = true) : Lexeme cs (.name s)

/-- A text from byte `offset` on as gaps and spellings. -/
inductive Split : Nat → List Char → Except SourceError (List Placed) → Prop
  | done (offset : Nat) : Split offset [] (.ok [])
  | gap {offset : Nat} {c : Char} {rest : List Char} {result : Except SourceError (List Placed)}
      (gap : isGap c = true) (later : Split (offset + 1) rest result) : Split offset (c :: rest) result
  | token {offset : Nat} {cs rest : List Char} {t : Token} {result : Except SourceError (List Placed)}
      (lexeme : Lexeme cs t) (later : Split (offset + cs.length) rest result) :
      Split offset (cs ++ rest) (result.map (⟨offset, t⟩ :: ·))
  | refused (offset : Nat) (cs : List Char) {cause : SourceCause} (within : cause.isOfLines = false) :
      Split offset cs (.error ⟨offset, cause⟩)

variable {c : Char} {cs : List Char} {t : Token} {offset : Nat} {result : Except SourceError (List Placed)}

/-! ### The characters of spellings -/

theorem isWordPart_of_isDigit (digit : Text.isDigit c = true) : isWordPart c = true := by
  simp [isWordPart, isNamePart, isAlphanum_of_isDigit digit]

theorem isWordPart_of_isNumeric (numeric : isNumeric c = true) : isWordPart c = true := by
  rcases Bool.or_eq_true_iff.mp numeric with digit | point
  · exact isWordPart_of_isDigit digit
  · simp [isWordPart, of_decide_eq_true point]

theorem isWordPart_of_isNamePart (part : isNamePart c = true) : isWordPart c = true := by
  simp [isWordPart, part]

theorem isWordPart_of_mem_digits (member : c ∈ cs.takeWhile Text.isDigit) : isWordPart c = true :=
  isWordPart_of_isDigit (List.mem_takeWhile_imp member)

theorem exponent_isPrefix (cs : List Char) : exponent cs <+: cs ∧ ∀ c ∈ exponent cs, isWordPart c = true := by
  have none : [] <+: cs ∧ ∀ c ∈ ([] : List Char), isWordPart c = true := ⟨List.nil_prefix, List.forall_mem_nil _⟩
  unfold exponent
  split
  · next letter first rest =>
    split
    · next starts =>
      have letter' : isWordPart letter = true := by
        rcases Bool.or_eq_true_iff.mp starts with lower | upper
        · rw [of_decide_eq_true lower]
          decide
        · rw [of_decide_eq_true upper]
          decide
      split
      · next signed =>
        have sign : isWordPart first = true := by
          rcases Bool.or_eq_true_iff.mp signed with plus | minus
          · simp [isWordPart, of_decide_eq_true plus]
          · simp [isWordPart, of_decide_eq_true minus]
        split
        · exact none
        · constructor
          · simp only [List.cons_prefix_cons, true_and]
            exact List.takeWhile_prefix _
          · simp only [List.forall_mem_cons]
            exact ⟨letter', sign, fun c member => isWordPart_of_mem_digits member⟩
      · split
        · exact none
        · constructor
          · simp only [List.cons_prefix_cons, true_and]
            exact List.takeWhile_prefix _
          · simp only [List.forall_mem_cons]
            exact ⟨letter', fun c member => isWordPart_of_mem_digits member⟩
    · exact none
  · exact none

theorem numeral_isPrefix (cs : List Char) : numeral cs <+: cs := by
  unfold numeral
  conv_rhs => rw [← List.takeWhile_append_dropWhile (p := isNumeric) (l := cs)]
  exact (List.prefix_append_right_inj _).mpr (exponent_isPrefix _).1

theorem isWordPart_of_mem_numeral (member : c ∈ numeral cs) : isWordPart c = true := by
  rcases List.mem_append.mp member with numeric | power
  · exact isWordPart_of_isNumeric (List.mem_takeWhile_imp numeric)
  · exact (exponent_isPrefix _).2 c power

theorem name_isPrefix (rest : List Char) (starts : isNameStart c = true) :
    c :: rest.takeWhile isNamePart <+: c :: rest ∧ ∀ d ∈ c :: rest.takeWhile isNamePart, isWordPart d = true := by
  constructor
  · simp only [List.cons_prefix_cons, true_and]
    exact List.takeWhile_prefix _
  · refine List.forall_mem_cons.mpr ⟨isWordPart_of_isNamePart (isNamePart_of_isNameStart starts), ?_⟩
    exact fun _ member => isWordPart_of_isNamePart (List.mem_takeWhile_imp member)

theorem utf8Size_of_isWordPart (part : isWordPart c = true) : c.utf8Size = 1 := by
  rw [Char.utf8Size_eq_one_iff]
  simp only [isWordPart, isNamePart, Char.isAlphanum, Char.isAlpha, Char.isUpper, Char.isLower, Char.isDigit,
    Bool.or_eq_true, Bool.and_eq_true, decide_eq_true_eq, ge_iff_le] at part
  rcases part with (((((upper | lower) | digit) | rfl) | rfl) | rfl) | rfl
  · exact UInt32.le_trans upper.2 (by decide)
  · exact UInt32.le_trans lower.2 (by decide)
  · exact UInt32.le_trans digit.2 (by decide)
  all_goals decide

theorem utf8Size_of_single? (known : single? c = some t) : c.utf8Size = 1 := by
  unfold single? at known
  split_ifs at known
  all_goals
    subst c
    decide

theorem utf8Size_of_isGap (gap : isGap c = true) : c.utf8Size = 1 := by
  simp only [isGap, Bool.or_eq_true, decide_eq_true_eq] at gap
  rcases gap with (rfl | rfl) | rfl
  all_goals decide

theorem byteLength_of_isWordPart (parts : ∀ c ∈ cs, isWordPart c = true) : byteLength cs = cs.length := by
  induction cs with
  | nil => rfl
  | cons c cs induction =>
      obtain ⟨first, later⟩ := List.forall_mem_cons.mp parts
      rw [Text.byteLength_cons, utf8Size_of_isWordPart first, induction later, List.length_cons, Nat.add_comm]

/-- Tokens are spelled with characters of one byte. -/
theorem Lexeme.byteLength_eq (lexeme : Lexeme cs t) : byteLength cs = cs.length := by
  cases lexeme with
  | single known =>
      rw [Text.byteLength_cons, utf8Size_of_single? known]
      rfl
  | equals => rfl
  | number v parts => exact byteLength_of_isWordPart parts
  | name s parts => exact byteLength_of_isWordPart parts

/-! ### Whole texts -/

theorem isOfLines_of_valueOf {cause : SourceCause} (read : valueOf cs = .error cause) : cause.isOfLines = false := by
  unfold valueOf at read
  split at read
  · cases read
    rfl
  · split at read
    · cases read
    · cases read
      rfl

theorem Split.of_isPrefix {used : List Char} (spelled : used <+: cs) (lexeme : Lexeme used t)
    (later : Split (offset + used.length) (cs.drop used.length) result) :
    Split offset cs (result.map (⟨offset, t⟩ :: ·)) := by
  have split := Split.token lexeme later
  rwa [List.prefix_iff_eq_append.mp spelled] at split

theorem split (offset : Nat) (cs : List Char) : Split offset cs (tokens offset cs) := by
  induction size : cs.length using Nat.strongRecOn generalizing offset cs with
  | ind size induction =>
      subst size
      rw [tokens.eq_def]
      split
      · exact .done offset
      · next c rest =>
        split
        · next gap => exact .gap gap (induction _ (Nat.lt_succ_self _) _ _ rfl)
        · split
          · next t known => exact .token (.single known) (induction _ (Nat.lt_succ_self _) _ _ rfl)
          · split
            · next equals =>
              subst equals
              split
              · exact .token .equals (induction _ (by simp) _ _ rfl)
              · exact .refused offset _ rfl
            · split
              · next numeric =>
                have long := length_numeral_pos rest numeric
                dsimp only
                split
                · next cause value => exact .refused offset _ (isOfLines_of_valueOf value)
                · next v value =>
                  refine .of_isPrefix (numeral_isPrefix _) (.number v fun _ => isWordPart_of_mem_numeral)
                    (induction _ ?_ _ _ rfl)
                  rw [List.length_drop, List.length_cons]
                  omega
              · split
                · next starts =>
                  obtain ⟨spelled, parts⟩ := name_isPrefix rest starts
                  refine .of_isPrefix spelled (.name _ parts) (induction _ ?_ _ _ rfl)
                  simp only [List.length_drop, List.length_cons]
                  omega
                · exact .refused offset _ rfl

def Tells (place : Nat) : Except SourceError (List Placed) → Prop
  | .ok placed => ∃ p ∈ placed, p.offset = place
  | .error error => error.offset = place

theorem Split.boundary {place : Nat} (split : Split offset cs result) (tells : Tells place result) :
    Boundary offset cs place := by
  induction split with
  | done offset =>
      obtain ⟨p, none, -⟩ := tells
      cases none
  | @gap offset c rest result gap later boundary =>
      refine .past [c] ?_
      rw [Text.byteLength_cons, utf8Size_of_isGap gap]
      exact boundary tells
  | @token offset cs rest t result lexeme later boundary =>
      cases result with
      | error error =>
          refine .past cs ?_
          rw [lexeme.byteLength_eq]
          exact boundary tells
      | ok placed =>
          obtain ⟨p, member, rfl⟩ := tells
          rcases List.mem_cons.mp member with rfl | member
          · exact .first offset _
          · refine .past cs ?_
            rw [lexeme.byteLength_eq]
            exact boundary ⟨p, member, rfl⟩
  | refused offset cs within => exact tells ▸ .first offset cs

theorem Split.isOfLines_error {error : SourceError} (split : Split offset cs (.error error)) :
    error.cause.isOfLines = false := by
  generalize same : Except.error error = result at split
  induction split with
  | done => cases same
  | gap gap later inside => exact inside same
  | @token offset cs rest t result lexeme later inside =>
      cases result with
      | error error' =>
          cases same
          exact inside rfl
      | ok placed => cases same
  | refused offset cs within =>
      cases same
      exact within

/-- A character that is the spelling of some tokens, and is in no other, occurs as often as they do. -/
theorem Split.count {d : Char} {q : Token → Bool} {placed : List Placed} (split : Split offset cs (.ok placed))
    (visible : isGap d = false) (sole : ∀ cs t, Lexeme cs t → cs.count d = (q t).toNat) :
    cs.count d = (placed.map Placed.token).countP q := by
  generalize same : Except.ok placed = result at split
  induction split generalizing placed with
  | done =>
      cases same
      rfl
  | @gap offset c rest result gap later count =>
      have other : c ≠ d := by
        rintro rfl
        rw [gap] at visible
        cases visible
      rw [List.count_cons_of_ne other, count same]
  | @token offset cs rest t result lexeme later count =>
      cases result with
      | error error => cases same
      | ok placed' =>
          cases same
          rw [List.count_append, sole _ _ lexeme, count rfl, List.map_cons, List.countP_cons, Nat.add_comm]
          cases q t <;> rfl
  | refused => cases same

end Expr

end DriftField
