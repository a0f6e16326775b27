import Mathlib
import DriftField.Proofs.Expr.Completeness
import DriftField.Proofs.Scalar.Clamp
/-!
Splitting any text, a token at a time. Where a text starts shows in the places of its tokens and in nothing else, and
the numbers among the tokens are finite.
-/

namespace DriftField.Expr

variable {cs : List Char} {e : Expr} {v : Float}

theorem isFinite_of_valueOf (read : valueOf cs = .ok v) : Scalar.isFinite v = true := by
  unfold valueOf at read
  split at read
  · cases read
  · split at read
    · next finite =>
      cases read
      exact finite
    · cases read

inductive Start (cs : List Char) : Prop
  | done (read : ∀ offset, tokens offset cs = .ok [])
  | refused (cause : SourceCause) (read : ∀ offset, tokens offset cs = .error ⟨offset, cause⟩)
  | gap {rest : List Char} (shorter : rest.length < cs.length)
      (read : ∀ offset, tokens offset cs = tokens (offset + 1) rest)
  | token (rest : List Char) (t : Token) (size : Nat) (shorter : rest.length < cs.length)
      (finite : ∀ v, t = .number v → Scalar.isFinite v = true)
      (read : ∀ offset, tokens offset cs = (tokens (offset + size) rest).map (⟨offset, t⟩ :: ·))

theorem not_number_of_single? {c : Char} {t : Token} (single : single? c = some t) : t ≠ .number v := by
  rintro rfl
  revert single
  unfold single?
  split_ifs <;> nofun

theorem Start.equals (rest : List Char) : Start ('=' :: rest) := by
  have visible : isGap '=' = false := by decide
  have several : single? '=' = none := by decide
  cases rest with
  | nil =>
      refine .refused .loneEquals fun offset => ?_
      rw [tokens.eq_def]
      simp only [visible, Bool.false_eq_true, ↓reduceIte, several]
  | cons d rest =>
      by_cases twice : d = '='
      · subst twice
        refine .token rest (.operator .eq) 2 (by simp) (fun v same => by cases same) fun offset => ?_
        rw [tokens.eq_def]
        simp only [visible, Bool.false_eq_true, ↓reduceIte, several]
      · refine .refused .loneEquals fun offset => ?_
        rw [tokens.eq_def]
        simp only [visible, Bool.false_eq_true, ↓reduceIte, several]
        split
        · next same => exact absurd (List.cons.inj same).1 twice
        · rfl

section
variable {c : Char} (visible : isGap c = false) (several : single? c = none) (unequal : c ≠ '=') (rest : List Char)
include visible several unequal

theorem Start.numeric (numeric : isNumeric c = true) : Start (c :: rest) := by
  have long := length_numeral_pos rest numeric
  cases value : valueOf (numeral (c :: rest)) with
  | error cause =>
      refine .refused cause fun offset => ?_
      rw [tokens.eq_def]
      simp only [visible, Bool.false_eq_true, ↓reduceIte, several, unequal, numeric, ↓reduceDIte, value]
  | ok v =>
      refine .token ((c :: rest).drop (numeral (c :: rest)).length) (.number v) (numeral (c :: rest)).length
        ?_ ?_ fun offset => ?_
      · rw [List.length_drop, List.length_cons]
        omega
      · rintro w ⟨⟩
        exact isFinite_of_valueOf value
      · rw [tokens.eq_def]
        simp only [visible, Bool.false_eq_true, ↓reduceIte, several, unequal, numeric, ↓reduceDIte, value]

theorem Start.name (other : isNumeric c = false) (starts : isNameStart c = true) : Start (c :: rest) := by
  refine .token ((c :: rest).drop (c :: rest.takeWhile isNamePart).length)
    (.name (String.ofList (c :: rest.takeWhile isNamePart))) (c :: rest.takeWhile isNamePart).length ?_ nofun
    fun offset => ?_
  · simp only [List.length_drop, List.length_cons]
    omega
  · rw [tokens.eq_def]
    simp only [visible, Bool.false_eq_true, ↓reduceIte, several, unequal, other, ↓reduceDIte, starts]

end

theorem start (cs : List Char) : Start cs := by
  cases cs with
  | nil => exact .done fun offset => by rw [tokens]
  | cons c rest =>
      cases visible : isGap c with
      | true =>
          refine .gap (Nat.lt_succ_self _) fun offset => ?_
          rw [tokens.eq_def]
          simp only [visible, ↓reduceIte]
      | false =>
          cases single : single? c with
          | some t =>
              have unlike (v : Float) : t ≠ .number v := not_number_of_single? single
              refine .token rest t 1 (Nat.lt_succ_self _) (fun v same => absurd same (unlike v)) fun offset => ?_
              rw [tokens.eq_def]
              simp only [visible, Bool.false_eq_true, ↓reduceIte, single]
          | none =>
              by_cases unequal : c = '='
              · subst unequal
                exact .equals rest
              cases numeric : isNumeric c with
              | true => exact .numeric visible single unequal rest numeric
              | false =>
                  cases starts : isNameStart c with
                  | true => exact .name visible single unequal rest numeric starts
                  | false =>
                      refine .refused (.strayCharacter c) fun offset => ?_
                      rw [tokens.eq_def]
                      simp only [visible, Bool.false_eq_true, ↓reduceIte, single, unequal, numeric, ↓reduceDIte, starts]

/-- The tokens of a text without their places. -/
def words? (offset : Nat) (cs : List Char) : Option (List Token) :=
  (tokens offset cs).toOption.map (List.map Placed.token)

theorem words?_of_token {offset offset' : Nat} {rest : List Char} {t : Token}
    (read : tokens offset cs = (tokens offset' rest).map (⟨offset, t⟩ :: ·)) :
    words? offset cs = (words? offset' rest).map (t :: ·) := by
  unfold words?
  rw [read]
  cases tokens offset' rest <;> rfl

theorem words?_congr (offset offset' : Nat) (cs : List Char) : words? offset cs = words? offset' cs := by
  induction size : cs.length using Nat.strongRecOn generalizing cs offset offset' with
  | ind size induction =>
      subst size
      cases start cs with
      | done read => simp only [words?, read]
      | refused cause read => simp only [words?, read, Except.toOption]
      | gap shorter read =>
          have same := induction _ shorter (offset + 1) (offset' + 1) _ rfl
          unfold words? at same ⊢
          rw [read, read, same]
      | token rest t size shorter finite read =>
          rw [words?_of_token (read offset), words?_of_token (read offset'),
            induction _ shorter (offset + size) (offset' + size) _ rfl]

theorem isFinite_of_mem_words? {offset : Nat} {ts : List Token} (read : words? offset cs = some ts)
    (member : .number v ∈ ts) : Scalar.isFinite v = true := by
  induction size : cs.length using Nat.strongRecOn generalizing cs offset ts with
  | ind size induction =>
      subst size
      cases start cs with
      | done read' =>
          simp only [words?, read', Except.toOption, Option.map_some, List.map_nil, Option.some.injEq] at read
          subst read
          cases member
      | refused cause read' => simp [words?, read', Except.toOption] at read
      | gap shorter read' =>
          unfold words? at read
          rw [read'] at read
          exact induction _ shorter read member rfl
      | token rest t size shorter finite read' =>
          rw [words?_of_token (read' offset), Option.map_eq_some_iff] at read
          obtain ⟨us, later, rfl⟩ := read
          rcases List.mem_cons.mp member with same | member'
          · exact finite v same.symm
          · exact induction _ shorter later member' rfl

theorem ofText_eq_ok_iff {offset : Nat} :
    ofText offset cs = .ok e ↔
      ∃ ts, words? offset cs = some ts ∧ Spells greatestDepth .condition ts e ∧ e.depth ≤ greatestDepth := by
  unfold ofText words?
  cases tokens offset cs with
  | error error => exact ⟨nofun, fun ⟨_, unread, _⟩ => nomatch unread⟩
  | ok placed =>
      change ofTokens _ placed = .ok e ↔ _
      rw [ofTokens_eq_ok_iff]
      simp [Except.toOption]

theorem Spells.literalsFinite {n : Nat} {phrase : Phrase} {ts : List Token} (words : Spells n phrase ts e)
    (finite : ∀ v, .number v ∈ ts → Scalar.isFinite v = true) : e.literalsFinite = true := by
  induction words with
  | equality words induction => exact induction finite
  | ifThen condition yes no inductionC inductionA inductionB =>
      have first := inductionC fun v member => finite v (by simp [member])
      have second := inductionA fun v member => finite v (by simp [member])
      have third := inductionB fun v member => finite v (by simp [member])
      simp only [Expr.literalsFinite, first, second, third, Bool.and_self]
  | operand words induction => exact induction finite
  | join member left right inductionL inductionR =>
      have first := inductionL fun v member => finite v (by simp [member])
      have second := inductionR fun v member => finite v (by simp [member])
      simp only [Expr.literalsFinite, first, second, Bool.and_self]
  | number => exact finite _ (List.mem_singleton_self _)
  | negative => exact Scalar.isFinite_neg (finite _ (by simp))
  | negation words unsigned induction =>
      have operand := induction fun v member => finite v (by simp [member])
      have one : Scalar.isFinite (-1.0) = true := by decide
      simp only [Expr.literalsFinite, one, operand, Bool.and_self]
  | x => rfl
  | y => rfl
  | call f argument induction => exact induction fun v member => finite v (by simp [member])
  | choose f first second inductionA inductionB =>
      have first := inductionA fun v member => finite v (by simp [member])
      have second := inductionB fun v member => finite v (by simp [member])
      simp only [Expr.literalsFinite, first, second, Bool.and_self]
  | group words induction => exact induction fun v member => finite v (by simp [member])

/-- Whatever reads is a tree that prints and compiles: not too deep, and without infinite literals. -/
theorem limits_of_ofText {offset : Nat} (read : ofText offset cs = .ok e) :
    e.depth ≤ greatestDepth ∧ e.literalsFinite = true := by
  obtain ⟨ts, split, words, shallow⟩ := ofText_eq_ok_iff.mp read
  exact ⟨shallow, words.literalsFinite fun v member => isFinite_of_mem_words? split member⟩

theorem toOption_ofText (offset offset' : Nat) (cs : List Char) :
    (ofText offset cs).toOption = (ofText offset' cs).toOption := by
  ext e
  rw [toOption_eq_some_iff, toOption_eq_some_iff, ofText_eq_ok_iff, ofText_eq_ok_iff, words?_congr]

end DriftField.Expr
