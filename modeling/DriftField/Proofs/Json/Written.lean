import Mathlib
import DriftField.Json.Printer
import DriftField.Json.Reader
import DriftField.Proofs.Decimal.Reading
/-!
Values that are written on several lines read back as they are spelled. The text splits into the tokens of the spelled
value, whatever follows it, and the reader takes just these tokens. Fractions are left out: their digits depend on
the number, not on its place in the value.
-/

namespace DriftField.Json

/-! ### Quoted texts -/

def hasEscape (c : Char) : Bool := c = '\n' || c = '\r' || c = '\t' || c = '\x08' || c = '\x0c'

/-- How a character is spelled in a quoted text. -/
def letterOf (c : Char) : Letter :=
  if c.toNat < 0x20 ∧ ¬hasEscape c then .unit c.toNat else .plain c

def lettersOf (s : String) : List Letter := s.toList.map letterOf

theorem unitOfDigits?_hexDigit : ∀ n < 32,
    unitOfDigits? '0' '0' (Text.hexDigit (n / 16)) (Text.hexDigit n) = some n := by
  decide

theorem letters?_escaped (c : Char) (rest : List Char) :
    letters? (escaped c ++ rest) = (letters? rest).map fun r => (letterOf c :: r.1, r.2) := by
  unfold escaped
  split_ifs with quote slash newline carriage tab back form control
  all_goals try subst_vars
  -- The escapes of one letter, each of a fixed character.
  all_goals try rfl
  · have noEscape : hasEscape c = false := by simp [hasEscape, *]
    have unit : letterOf c = .unit c.toNat := if_pos ⟨control, by simp [noEscape]⟩
    simp only [List.cons_append, List.nil_append, letters?, unitOfDigits?_hexDigit _ control, unit]
  · have plain : letterOf c = .plain c := if_neg fun h => control h.1
    rw [List.cons_append, List.nil_append, letters?, if_neg control, plain]
    · exact fun h => absurd h quote
    · exact fun _ _ _ _ _ h _ => absurd h slash
    · exact fun _ _ h => absurd h slash

theorem letters?_flatMap_escaped (cs rest : List Char) :
    letters? (cs.flatMap escaped ++ '"' :: rest) = some (cs.map letterOf, rest) := by
  induction cs with
  | nil => rw [List.flatMap_nil, List.nil_append, letters?]; rfl
  | cons c cs induction =>
      rw [List.flatMap_cons, List.append_assoc, letters?_escaped, induction]
      rfl

theorem characters?_unit {n : Nat} (low : n < 0xd800) (rest : List Letter) :
    characters? (.unit n :: rest) = (characters? rest).map (Char.ofNat n :: ·) := by
  have noSurrogate : ¬(0xd800 ≤ n ∧ n < 0xe000) := by omega
  have noHigh : ¬(0xd800 ≤ n ∧ n < 0xdc00) := by omega
  have noLow : ¬(0xdc00 ≤ n ∧ n < 0xe000) := by omega
  rcases rest with _ | ⟨c | m, rest⟩
  · simp only [characters?, Bool.and_eq_true, decide_eq_true_eq, noSurrogate, if_false]
  · simp only [characters?, Bool.and_eq_true, decide_eq_true_eq, noSurrogate, if_false]
  · rw [characters?]
    simp only [Bool.and_eq_true, decide_eq_true_eq, noHigh, noLow, if_false]

theorem characters?_map_letterOf (cs : List Char) : characters? (cs.map letterOf) = some cs := by
  induction cs with
  | nil => rfl
  | cons c cs induction =>
      rw [List.map_cons, letterOf]
      split_ifs with control
      -- Control characters lie below the surrogates, so the unit stands alone.
      · rw [characters?_unit (by omega), induction, Option.map_some, Char.ofNat_toNat]
      · rw [characters?, induction]
        rfl

theorem string?_lettersOf (s : String) : string? (lettersOf s) = some s := by
  unfold string? lettersOf
  rw [characters?_map_letterOf, Option.map_some, String.ofList_toList]

/-! ### Whole numbers -/

def Ended (rest : List Char) : Prop := ∀ c ∈ rest.head?, c = ',' ∨ c = '\n'

theorem Ended.not_isDigit {rest : List Char} (ended : Ended rest) :
    ∀ c ∈ rest.head?, Text.isDigit c = false := by
  intro c first
  obtain rfl | rfl := ended c first <;> rfl

def numeralOf (n : Int) : Numeral := ⟨decide (n < 0), Decimal.digits n.natAbs, none, none⟩

theorem head_digits_ne_zero {n : Nat} (positive : 0 < n) : ∀ c ∈ (Decimal.digits n).head?, c ≠ '0' := by
  unfold Decimal.digits
  induction n using Nat.strongRecOn with
  | ind n induction =>
    by_cases small : n < 10
    · rw [Nat.toDigits_of_lt_base small]
      interval_cases n <;> simp
    -- A longer numeral starts as the one without its last digit does.
    · rw [Nat.toDigits_of_base_le (by decide) (by omega),
        List.head?_append_of_ne_nil _ Nat.toDigits_ne_nil]
      exact induction (n / 10) (by omega) (by omega)

theorem wholeDigits?_digits (n : Nat) {rest : List Char} (ended : Ended rest) :
    wholeDigits? (Decimal.digits n ++ rest) = some (Decimal.digits n, rest) := by
  obtain rfl | positive := Nat.eq_zero_or_pos n
  · rfl
  · have digits := fun c => Decimal.isDigit_of_mem_digits (n := n) (c := c)
    have spanned := Text.span_isDigit rest digits ended.not_isDigit
    have first := head_digits_ne_zero positive
    obtain ⟨c, ds, shape⟩ := List.exists_cons_of_ne_nil (Decimal.digits_ne_nil n)
    rw [shape] at spanned first digits ⊢
    have digit := digits c List.mem_cons_self
    rw [List.span_eq_takeWhile_dropWhile, List.cons_append, List.takeWhile_cons_of_pos digit,
      List.dropWhile_cons_of_pos digit, Prod.mk.injEq, List.cons.injEq] at spanned
    rw [List.cons_append, wholeDigits?, if_neg (first c rfl), if_pos digit, spanned.1.2, spanned.2]

theorem numeral?_digits (negative : Bool) (n : Nat) {rest : List Char} (ended : Ended rest) :
    numeral? negative (Decimal.digits n ++ rest) =
      some (⟨negative, Decimal.digits n, none, none⟩, rest) := by
  have noFraction : fractionDigits? rest = some (none, rest) := by
    unfold fractionDigits?
    split
    · exact absurd (ended '.' rfl) (by decide)
    · rfl
  have noExponent : exponent? rest = some (none, rest) := by
    cases rest with
    | nil => rfl
    | cons c rest =>
        have other : ¬(c = 'e' ∨ c = 'E') := by
          obtain rfl | rfl := ended c rfl <;> decide
        simp only [exponent?, Bool.or_eq_true, decide_eq_true_eq, other, if_false]
  simp only [numeral?, wholeDigits?_digits n ended, noFraction, noExponent]
  rfl

theorem absorb_eq {ds : List Char} {n : Nat} (fits : Nat.ofDigitChars 10 ds n ≤ greatestWord) :
    absorb n ds = (Nat.ofDigitChars 10 ds n, []) := by
  induction ds generalizing n with
  | nil => rfl
  | cons c ds induction =>
      rw [Nat.ofDigitChars_cons] at fits ⊢
      have next : 10 * n + (c.toNat - '0'.toNat) ≤ greatestWord :=
        calc _ ≤ Nat.ofDigitChars 10 ds (10 * n + (c.toNat - '0'.toNat)) := by
              rw [Nat.ofDigitChars_eq_ofDigitChars_zero]
              exact Nat.le_add_right_of_le (Nat.le_mul_of_pos_left _ (Nat.pow_pos (by decide)))
          _ ≤ greatestWord := fits
      simp only [absorb, Nat.not_lt.mpr next, if_false]
      exact induction fits

theorem value?_numeralOf {n : Nat} (fits : n ≤ greatestWord) : (numeralOf n).value? = some (.whole n) := by
  have value : Nat.ofDigitChars 10 (Decimal.digits n) 0 = n := Nat.ofDigitChars_ten_toDigits
  have absorbed := absorb_eq (value ▸ fits)
  rw [value] at absorbed
  simp [Numeral.value?, numeralOf, absorbed]

/-! ### Tokens -/

/-- The text `cs` splits into the tokens `ts` up to `rest`: a rule for each token, and for two parts of a text in
turn. -/
inductive Lexes : List Char → List Char → List Token → Prop
  | refl (cs : List Char) : Lexes cs cs []
  | trans {cs between rest : List Char} {ts us : List Token} (first : Lexes cs between ts)
      (second : Lexes between rest us) : Lexes cs rest (ts ++ us)
  | openList (rest : List Char) : Lexes ('[' :: rest) rest [.openList]
  | closeList (rest : List Char) : Lexes (']' :: rest) rest [.closeList]
  | openObject (rest : List Char) : Lexes ('\x7b' :: rest) rest [.openObject]
  | closeObject (rest : List Char) : Lexes ('\x7d' :: rest) rest [.closeObject]
  | comma (rest : List Char) : Lexes (',' :: rest) rest [.comma]
  | colon (rest : List Char) : Lexes (':' :: rest) rest [.colon]
  | null (rest : List Char) : Lexes ("null".toList ++ rest) rest [.null]
  | yes (rest : List Char) : Lexes ("true".toList ++ rest) rest [.boolean true]
  | no (rest : List Char) : Lexes ("false".toList ++ rest) rest [.boolean false]
  | blank (rest : List Char) : Lexes (' ' :: rest) rest []
  | newLine (rest : List Char) : Lexes ('\n' :: rest) rest []
  | quoted {cs rest : List Char} {letters : List Letter} (read : letters? cs = some (letters, rest)) :
      Lexes ('"' :: cs) rest [.quoted letters]
  | minus {cs rest : List Char} {n : Numeral} (read : numeral? true cs = some (n, rest)) :
      Lexes ('-' :: cs) rest [.number n]
  | number {c : Char} {cs rest : List Char} {n : Numeral} (digit : Text.isDigit c = true)
      (read : numeral? false (c :: cs) = some (n, rest)) : Lexes (c :: cs) rest [.number n]

theorem isSpace_of_isDigit {c : Char} (digit : Text.isDigit c = true) : isSpace c = false := by
  rw [Bool.eq_false_iff]
  intro space
  simp only [isSpace, Bool.or_eq_true, decide_eq_true_eq] at space
  rcases space with ((rfl | rfl) | rfl) | rfl <;> exact absurd digit (by decide)

namespace Lexes

theorem tokens?_eq {cs rest : List Char} {ts : List Token} (lexed : Lexes cs rest ts) :
    tokens? cs = (tokens? rest).map (ts ++ ·) := by
  induction lexed with
  | refl cs => simp
  | trans _ _ first second =>
      rw [first, second, Option.map_map]
      simp only [Function.comp_def, List.append_assoc]
  | null | yes | no | openList | closeList | openObject | closeObject | comma | colon => simp [tokens?]
  | blank | newLine => simp [tokens?, isSpace]
  | quoted read | minus read =>
      rw [tokens?]
      split
      · simp_all
      · rename_i r h
        rw [read] at h
        cases h
        rfl
  | number digit read =>
      rw [tokens?]
      · rw [if_neg (by simp [isSpace_of_isDigit digit])]
        split
        · simp_all
        · rename_i r h
          rw [read] at h
          cases h
          rfl
      -- No other token starts with a digit.
      all_goals
        intros
        subst_vars
        exact absurd digit (by decide)

variable {rest : List Char}

theorem lineBreak (depth : Nat) (rest : List Char) : Lexes (lineBreak depth ++ rest) rest [] := by
  have blanks (n : Nat) : Lexes (List.replicate n ' ' ++ rest) rest [] := by
    induction n with
    | zero => exact refl rest
    | succ n induction => exact (blank _).trans induction
  exact (newLine _).trans (blanks _)

theorem text (s : String) (rest : List Char) :
    Lexes (Json.quoted s ++ rest) rest [.quoted (lettersOf s)] := by
  rw [Json.quoted, List.cons_append, List.cons_append, List.append_assoc]
  exact quoted (letters?_flatMap_escaped s.toList rest)

theorem wholeText (n : Int) (ended : Ended rest) :
    Lexes (wholeText n ++ rest) rest [.number (numeralOf n)] := by
  unfold Json.wholeText numeralOf
  split_ifs with negative
  · rw [decide_eq_true negative]
    exact minus (numeral?_digits true _ ended)
  · rw [decide_eq_false negative]
    have read := numeral?_digits false n.natAbs ended
    have digits := fun c => Decimal.isDigit_of_mem_digits (n := n.natAbs) (c := c)
    obtain ⟨c, ds, shape⟩ := List.exists_cons_of_ne_nil (Decimal.digits_ne_nil n.natAbs)
    rw [shape] at read digits ⊢
    exact number (digits c List.mem_cons_self) read

variable {value between : List Char} {ts us : List Token}

theorem item (depth : Nat) (own : Lexes (value ++ between) between ts) (more : Lexes between rest us) :
    Lexes (Json.lineBreak depth ++ (value ++ between)) rest (ts ++ us) :=
  (lineBreak depth _).trans (own.trans more)

theorem member (depth : Nat) (name : String) (own : Lexes (value ++ between) between ts)
    (more : Lexes between rest us) :
    Lexes (Json.lineBreak depth ++ (Json.quoted name ++ ':' :: ' ' :: (value ++ between))) rest
      (.quoted (lettersOf name) :: .colon :: (ts ++ us)) :=
  (lineBreak depth _).trans ((text name _).trans ((colon _).trans ((blank _).trans (own.trans more))))

end Lexes

/-! ### Spelled values -/

mutual

def Spelled.tokens : Spelled → List Token
  | .null => [.null]
  | .boolean b => [.boolean b]
  | .number n => [.number n]
  | .quoted ls => [.quoted ls]
  | .list [] => [.openList, .closeList]
  | .list (item :: items) => .openList :: (item.tokens ++ Spelled.itemTokens items)
  | .object [] => [.openObject, .closeObject]
  | .object ((name, value) :: members) =>
      .openObject :: .quoted name :: .colon :: (value.tokens ++ Spelled.memberTokens members)

def Spelled.itemTokens : List Spelled → List Token
  | [] => [.closeList]
  | item :: items => .comma :: (item.tokens ++ Spelled.itemTokens items)

def Spelled.memberTokens : List (List Letter × Spelled) → List Token
  | [] => [.closeObject]
  | (name, value) :: members =>
      .comma :: .quoted name :: .colon :: (value.tokens ++ Spelled.memberTokens members)

end

mutual

def Spelled.nesting : Spelled → Nat
  | .list items => Spelled.itemNesting items + 1
  | .object members => Spelled.memberNesting members + 1
  | _ => 0

def Spelled.itemNesting : List Spelled → Nat
  | [] => 0
  | item :: items => max item.nesting (Spelled.itemNesting items)

def Spelled.memberNesting : List (List Letter × Spelled) → Nat
  | [] => 0
  | (_, value) :: members => max value.nesting (Spelled.memberNesting members)

end

theorem Spelled.head_tokens_ne_closeList (s : Spelled) (rest : List Token) :
    (s.tokens ++ rest).head? ≠ some .closeList := by
  rcases s with _ | _ | _ | _ | ⟨_ | ⟨item, items⟩⟩ | ⟨_ | ⟨⟨name, value⟩, members⟩⟩
  all_goals
    rw [Spelled.tokens]
    exact nofun

def Reading.Gives {α : Type} {tokens : List Token} (r : Option (Reading α tokens)) (value : α)
    (rest : List Token) : Prop :=
  ∃ h, r = some ⟨value, rest, h⟩

section

variable {depth : Nat} {tokens between rest : List Token} {item : Spelled} {items : List Spelled}
  {name : List Letter} {members : List (List Letter × Spelled)}

theorem readValue_openList (notEmpty : tokens.head? ≠ some .closeList)
    (read : Reading.Gives (readItems depth tokens) items rest) :
    Reading.Gives (readValue (depth + 1) (.openList :: tokens)) (.list items) rest := by
  obtain ⟨h, read⟩ := read
  refine ⟨Nat.lt_succ_of_lt h, ?_⟩
  rw [readValue, if_neg (Nat.succ_ne_zero depth), Nat.add_sub_cancel, read]
  · rfl
  -- The reader takes a bracket with its closing one first.
  · rintro _ rfl
    exact notEmpty rfl

theorem readValue_openObject (read : Reading.Gives (readMembers depth (.quoted name :: tokens)) members rest) :
    Reading.Gives (readValue (depth + 1) (.openObject :: .quoted name :: tokens)) (.object members) rest := by
  obtain ⟨h, read⟩ := read
  refine ⟨Nat.lt_succ_of_lt h, ?_⟩
  rw [readValue, if_neg (Nat.succ_ne_zero depth), Nat.add_sub_cancel, read]
  · rfl
  · intro _ starts
    cases starts

theorem readItems_last (read : Reading.Gives (readValue depth tokens) item (.closeList :: rest)) :
    Reading.Gives (readItems depth tokens) [item] rest := by
  obtain ⟨h, read⟩ := read
  refine ⟨Nat.lt_of_succ_lt h, ?_⟩
  rw [readItems, read]

theorem readItems_comma (read : Reading.Gives (readValue depth tokens) item (.comma :: between))
    (more : Reading.Gives (readItems depth between) items rest) :
    Reading.Gives (readItems depth tokens) (item :: items) rest := by
  obtain ⟨h, read⟩ := read
  obtain ⟨h', more⟩ := more
  refine ⟨h'.trans (Nat.lt_of_succ_lt h), ?_⟩
  rw [readItems, read]
  simp only [more]
  rfl

theorem readMembers_last (read : Reading.Gives (readValue depth tokens) item (.closeObject :: rest)) :
    Reading.Gives (readMembers depth (.quoted name :: .colon :: tokens)) [(name, item)] rest := by
  obtain ⟨h, read⟩ := read
  refine ⟨by simp only [List.length_cons] at h ⊢; omega, ?_⟩
  rw [readMembers, read]

theorem readMembers_comma (read : Reading.Gives (readValue depth tokens) item (.comma :: between))
    (more : Reading.Gives (readMembers depth between) members rest) :
    Reading.Gives (readMembers depth (.quoted name :: .colon :: tokens)) ((name, item) :: members) rest := by
  obtain ⟨h, read⟩ := read
  obtain ⟨h', more⟩ := more
  refine ⟨by simp only [List.length_cons] at h ⊢; omega, ?_⟩
  rw [readMembers, read]
  simp only [more]
  rfl

end

mutual

theorem readValue_tokens {depth : Nat} (s : Spelled) (shallow : s.nesting ≤ depth) (rest : List Token) :
    Reading.Gives (readValue depth (s.tokens ++ rest)) s rest := by
  match s, depth with
  | .null, _ | .boolean _, _ | .number _, _ | .quoted _, _ | .list [], _ + 1 | .object [], _ + 1 =>
      exact ⟨by simp [Spelled.tokens], by simp [Spelled.tokens, readValue]⟩
  | .list (item :: items), depth + 1 =>
      have shallow := Nat.max_le.mp (Nat.le_of_succ_le_succ shallow)
      rw [Spelled.tokens, List.cons_append, List.append_assoc]
      exact readValue_openList (item.head_tokens_ne_closeList _)
        (readItems_tokens items shallow.2 (readValue_tokens item shallow.1 _))
  | .object ((name, value) :: members), depth + 1 =>
      have shallow := Nat.max_le.mp (Nat.le_of_succ_le_succ shallow)
      rw [Spelled.tokens, List.cons_append, List.cons_append, List.cons_append, List.append_assoc]
      exact readValue_openObject
        (readMembers_tokens members shallow.2 (readValue_tokens value shallow.1 _))

theorem readItems_tokens {depth : Nat} {item : Spelled} {tokens rest : List Token} (items : List Spelled)
    (shallow : Spelled.itemNesting items ≤ depth)
    (read : Reading.Gives (readValue depth tokens) item (Spelled.itemTokens items ++ rest)) :
    Reading.Gives (readItems depth tokens) (item :: items) rest := by
  match items with
  | [] => exact readItems_last read
  | next :: items =>
      have shallow := Nat.max_le.mp shallow
      rw [Spelled.itemTokens, List.cons_append, List.append_assoc] at read
      exact readItems_comma read (readItems_tokens items shallow.2 (readValue_tokens next shallow.1 _))

theorem readMembers_tokens {depth : Nat} {name : List Letter} {value : Spelled} {tokens rest : List Token}
    (members : List (List Letter × Spelled)) (shallow : Spelled.memberNesting members ≤ depth)
    (read : Reading.Gives (readValue depth tokens) value (Spelled.memberTokens members ++ rest)) :
    Reading.Gives (readMembers depth (.quoted name :: .colon :: tokens)) ((name, value) :: members) rest := by
  match members with
  | [] => exact readMembers_last read
  | (next, nextValue) :: members =>
      have shallow := Nat.max_le.mp shallow
      rw [Spelled.memberTokens, List.cons_append, List.cons_append, List.cons_append, List.append_assoc]
        at read
      exact readMembers_comma read
        (readMembers_tokens members shallow.2 (readValue_tokens nextValue shallow.1 _))

end

/-! ### Printed values -/

mutual

/-- How a value without fractions is spelled. -/
def spelling? : Json → Option Spelled
  | .null => some .null
  | .boolean b => some (.boolean b)
  | .whole n => some (.number (numeralOf n))
  | .fraction _ => none
  | .text s => some (.quoted (lettersOf s))
  | .list items => (spellings? items).map .list
  | .object members => (memberSpellings? members).map .object

def spellings? : List Json → Option (List Spelled)
  | [] => some []
  | item :: items => do
      let s ← spelling? item
      let ss ← spellings? items
      return s :: ss

def memberSpellings? : List (String × Json) → Option (List (List Letter × Spelled))
  | [] => some []
  | (name, value) :: members => do
      let s ← spelling? value
      let ss ← memberSpellings? members
      return (lettersOf name, s) :: ss

end

theorem exists_of_spellings?_cons {item : Json} {items : List Json} {all : List Spelled}
    (spelled : spellings? (item :: items) = some all) :
    ∃ s, spelling? item = some s ∧ ∃ ss, spellings? items = some ss ∧ s :: ss = all := by
  simpa [spellings?, Option.bind_eq_some_iff] using spelled

theorem exists_of_memberSpellings?_cons {name : String} {value : Json} {members : List (String × Json)}
    {all : List (List Letter × Spelled)} (spelled : memberSpellings? ((name, value) :: members) = some all) :
    ∃ s, spelling? value = some s ∧
      ∃ ss, memberSpellings? members = some ss ∧ (lettersOf name, s) :: ss = all := by
  simpa [memberSpellings?, Option.bind_eq_some_iff] using spelled

theorem ended_prettyItems (depth : Nat) (items : List Json) (rest : List Char) :
    Ended (prettyItems depth items ++ rest) := by
  cases items with
  | nil => simp [Ended, prettyItems, lineBreak]
  | cons item items => simp [Ended, prettyItems]

theorem ended_prettyMembers (depth : Nat) (members : List (String × Json)) (rest : List Char) :
    Ended (prettyMembers depth members ++ rest) := by
  cases members with
  | nil => simp [Ended, prettyMembers, lineBreak]
  | cons member members => simp [Ended, prettyMembers]

mutual

theorem lexes_pretty (depth : Nat) (value : Json) {s : Spelled} (spelled : spelling? value = some s)
    {rest : List Char} (ended : Ended rest) : Lexes (pretty depth value ++ rest) rest s.tokens := by
  match value with
  | .null =>
      cases spelled
      exact Lexes.null rest
  | .boolean true =>
      cases spelled
      exact Lexes.yes rest
  | .boolean false =>
      cases spelled
      exact Lexes.no rest
  | .whole n =>
      cases spelled
      exact Lexes.wholeText n ended
  | .text t =>
      cases spelled
      exact Lexes.text t rest
  | .list [] =>
      cases spelled
      exact (Lexes.openList _).trans (Lexes.closeList rest)
  | .object [] =>
      cases spelled
      exact (Lexes.openObject _).trans (Lexes.closeObject rest)
  | .list (item :: items) =>
      obtain ⟨all, each, rfl⟩ := Option.map_eq_some_iff.mp spelled
      obtain ⟨s, ofItem, ss, ofItems, rfl⟩ := exists_of_spellings?_cons each
      rw [pretty, Spelled.tokens]
      simp only [List.cons_append, List.append_assoc]
      exact (Lexes.openList _).trans (Lexes.item _
        (lexes_pretty _ item ofItem (ended_prettyItems depth items rest))
        (lexes_prettyItems depth items ofItems rest))
  | .object ((name, value) :: members) =>
      obtain ⟨all, each, rfl⟩ := Option.map_eq_some_iff.mp spelled
      obtain ⟨s, ofValue, ss, ofMembers, rfl⟩ := exists_of_memberSpellings?_cons each
      rw [pretty, Spelled.tokens]
      simp only [List.cons_append, List.append_assoc]
      exact (Lexes.openObject _).trans (Lexes.member _ name
        (lexes_pretty _ value ofValue (ended_prettyMembers depth members rest))
        (lexes_prettyMembers depth members ofMembers rest))

theorem lexes_prettyItems (depth : Nat) (items : List Json) {ss : List Spelled}
    (spelled : spellings? items = some ss) (rest : List Char) :
    Lexes (prettyItems depth items ++ rest) rest (Spelled.itemTokens ss) := by
  match items with
  | [] =>
      cases spelled
      rw [prettyItems, List.append_assoc]
      exact (Lexes.lineBreak depth _).trans (Lexes.closeList rest)
  | item :: items =>
      obtain ⟨s, ofItem, ss, ofItems, rfl⟩ := exists_of_spellings?_cons spelled
      rw [prettyItems, Spelled.itemTokens]
      simp only [List.cons_append, List.append_assoc]
      exact (Lexes.comma _).trans (Lexes.item _
        (lexes_pretty _ item ofItem (ended_prettyItems depth items rest))
        (lexes_prettyItems depth items ofItems rest))

theorem lexes_prettyMembers (depth : Nat) (members : List (String × Json)) {ss : List (List Letter × Spelled)}
    (spelled : memberSpellings? members = some ss) (rest : List Char) :
    Lexes (prettyMembers depth members ++ rest) rest (Spelled.memberTokens ss) := by
  match members with
  | [] =>
      cases spelled
      rw [prettyMembers, List.append_assoc]
      exact (Lexes.lineBreak depth _).trans (Lexes.closeObject rest)
  | (name, value) :: members =>
      obtain ⟨s, ofValue, ss, ofMembers, rfl⟩ := exists_of_memberSpellings?_cons spelled
      rw [prettyMembers, Spelled.memberTokens]
      simp only [List.cons_append, List.append_assoc]
      exact (Lexes.comma _).trans (Lexes.member _ name
        (lexes_pretty _ value ofValue (ended_prettyMembers depth members rest))
        (lexes_prettyMembers depth members ofMembers rest))

end

theorem spelled?_prettyText {depth : Nat} {value : Json} {s : Spelled} (spelled : spelling? value = some s)
    (shallow : s.nesting ≤ depth) : spelled? depth (prettyText value) = some s := by
  have lexed := (lexes_pretty 0 value spelled (show Ended [] from nofun)).tokens?_eq
  obtain ⟨h, read⟩ := readValue_tokens s shallow []
  rw [List.append_nil, tokens?, Option.map_some] at lexed
  rw [spelled?, prettyText, String.toList_ofList, lexed]
  simp only [Option.bind_eq_bind, Option.bind_some, read, List.isEmpty_nil, if_true]

end DriftField.Json
