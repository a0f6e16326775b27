import Mathlib
import DriftField.Proofs.Share
/-!
The texts that spell numbers. A whole number is a run of digits, with or without a plus sign. A number is digits with at
most one point among them or beside them and perhaps an exponent, or the word for infinity or for no number, and has a
sign or none. The readers accept exactly these texts.
-/

namespace DriftField.Text

variable {text ds rest before after : List Char}

structure Digits (ds : List Char) : Prop where
  nonempty : ds ≠ []
  digits : ∀ c ∈ ds, isDigit c = true

theorem Digits.isDigit_head (run : Digits ds) : ∀ c ∈ ds.head?, isDigit c = true :=
  fun c first => run.digits c (List.mem_of_mem_head? first)

/-! Whole numbers. -/

inductive SpellsWhole : List Char → Nat → Prop
  | bare {ds : List Char} (run : Digits ds) : SpellsWhole ds (Nat.ofDigitChars 10 ds 0)
  | plus {ds : List Char} (run : Digits ds) : SpellsWhole ('+' :: ds) (Nat.ofDigitChars 10 ds 0)

theorem SpellsWhole.ne_nil {n : Nat} (spells : SpellsWhole text n) : text ≠ [] := by
  cases spells with
  | bare run => exact run.nonempty
  | plus run => exact List.cons_ne_nil _ _

theorem digit?_eq_some_iff {c : Char} {d : Nat} :
    digit? c = some d ↔ isDigit c = true ∧ c.toNat - '0'.toNat = d := by
  constructor
  · intro read
    have digit : isDigit c = true := by
      by_contra other
      have none : digit? c = none := if_neg other
      rw [none] at read
      cases read
    rw [digit?_eq digit] at read
    exact ⟨digit, Option.some.inj read⟩
  · rintro ⟨digit, rfl⟩
    exact digit?_eq digit

theorem accumulate_eq_ok_iff {bound n m : Nat} (fits : n < bound) :
    whole.accumulate bound n ds = .ok m ↔
      (∀ c ∈ ds, isDigit c = true) ∧ Nat.ofDigitChars 10 ds n = m ∧ m < bound := by
  constructor
  · intro read
    refine and_assoc.mp ⟨?_, lt_of_accumulate fits read⟩
    induction ds generalizing n with
    | nil =>
        cases read
        exact ⟨List.forall_mem_nil _, rfl⟩
    | cons c ds induction =>
        unfold whole.accumulate at read
        split at read
        · cases read
        · next d first =>
          obtain ⟨digit, rfl⟩ := digit?_eq_some_iff.mp first
          split at read
          · cases read
          · next below =>
            obtain ⟨digits, value⟩ := induction (Nat.lt_of_not_le below) read
            exact ⟨List.forall_mem_cons.mpr ⟨digit, digits⟩, (Nat.ofDigitChars_cons ..).trans value⟩
  · rintro ⟨digits, rfl, below⟩
    exact accumulate_eq digits below

/-- The text spells a whole number that fits in a word. -/
def SpellsWord (text : List Char) (n : Nat) : Prop := SpellsWhole text n ∧ n < UInt64.size

theorem word_eq_ok_iff {n : Nat} : word text = .ok n ↔ SpellsWord text n := by
  have positive : 0 < wordBound := by decide
  unfold word whole
  constructor
  · intro read
    split at read
    · cases read
    · obtain ⟨digits, rfl, below⟩ := (accumulate_eq_ok_iff positive).mp read
      exact ⟨.plus ⟨List.cons_ne_nil _ _, digits⟩, below⟩
    · next nonempty _ =>
      obtain ⟨digits, rfl, below⟩ := (accumulate_eq_ok_iff positive).mp read
      exact ⟨.bare ⟨nonempty, digits⟩, below⟩
  · rintro ⟨spells, below⟩
    cases spells with
    | bare run =>
        split
        · exact absurd rfl run.nonempty
        · cases run.isDigit_head '+' rfl
        · exact (accumulate_eq_ok_iff positive).mpr ⟨run.digits, rfl, below⟩
    | @plus ds run =>
        obtain ⟨c, rest, rfl⟩ := List.exists_cons_of_ne_nil run.nonempty
        exact (accumulate_eq_ok_iff positive).mpr ⟨run.digits, rfl, below⟩

/-! Decimal fractions. -/

/-- Digits with at most one point: the digits before it and those after it. -/
inductive Mantissa : List Char → List Char → List Char → Prop
  | whole {before : List Char} (run : Digits before) : Mantissa before before []
  | point {before after : List Char} (run : Digits (before ++ after)) : Mantissa (before ++ '.' :: after) before after

inductive Exponent : List Char → Int → Prop
  | none : Exponent [] 0
  | bare {letter : Char} {ds : List Char} (mark : letter = 'e' ∨ letter = 'E') (run : Digits ds) :
      Exponent (letter :: ds) (exponentOfDigits ds)
  | plus {letter : Char} {ds : List Char} (mark : letter = 'e' ∨ letter = 'E') (run : Digits ds) :
      Exponent (letter :: '+' :: ds) (exponentOfDigits ds)
  | minus {letter : Char} {ds : List Char} (mark : letter = 'e' ∨ letter = 'E') (run : Digits ds) :
      Exponent (letter :: '-' :: ds) (-(exponentOfDigits ds : Int))

inductive SpellsDecimal : List Char → Decimal → Prop
  | intro {mantissa exponent before after : List Char} {e : Int} (front : Mantissa mantissa before after)
      (rear : Exponent exponent e) :
      SpellsDecimal (mantissa ++ exponent) ⟨Nat.ofDigitChars 10 (before ++ after) 0, e - after.length⟩

theorem digitRun?_eq_some_iff {n : Nat} :
    exponentPart?.digitRun? ds = some n ↔ Digits ds ∧ exponentOfDigits ds = n := by
  unfold exponentPart?.digitRun?
  split
  · next run =>
    obtain ⟨nonempty, digits⟩ := Bool.and_eq_true_iff.mp run
    have run : Digits ds := ⟨of_decide_eq_true nonempty, List.all_eq_true.mp digits⟩
    exact ⟨fun same => ⟨run, Option.some.inj same⟩, fun ⟨_, same⟩ => congrArg some same⟩
  · next none =>
    refine iff_of_false nofun fun ⟨run, _⟩ => none ?_
    exact Bool.and_eq_true_iff.mpr ⟨decide_eq_true run.nonempty, List.all_eq_true.mpr run.digits⟩

section Letter

variable {letter : Char} (mark : letter = 'e' ∨ letter = 'E')

include mark

theorem marked_of_letter : (letter = 'e' || letter = 'E') = true := by simpa using mark

theorem exponentPart?_minus (ds : List Char) :
    exponentPart? (letter :: '-' :: ds) = (exponentPart?.digitRun? ds).map fun n : Nat => -(n : Int) := by
  refine (if_pos (marked_of_letter mark)).trans ?_
  change Option.map (fun n : Int => -n) (do return ((← exponentPart?.digitRun? ds : Nat) : Int)) = _
  cases exponentPart?.digitRun? ds <;> rfl

theorem exponentPart?_plus (ds : List Char) :
    exponentPart? (letter :: '+' :: ds) = (exponentPart?.digitRun? ds).map Int.ofNat :=
  if_pos (marked_of_letter mark)

theorem exponentPart?_bare {ds : List Char} (minus : ds.head? ≠ some '-') (plus : ds.head? ≠ some '+') :
    exponentPart? (letter :: ds) = (exponentPart?.digitRun? ds).map Int.ofNat := by
  refine (if_pos (marked_of_letter mark)).trans ?_
  split
  · exact absurd rfl minus
  · exact absurd rfl plus
  · rfl

end Letter

theorem exponentPart?_eq_some_iff {e : Int} : exponentPart? text = some e ↔ Exponent text e := by
  constructor
  · intro read
    cases text with
    | nil =>
        cases read
        exact .none
    | cons letter rest =>
        by_cases mark : letter = 'e' ∨ letter = 'E'
        · by_cases minus : rest.head? = some '-'
          · obtain ⟨ds, rfl⟩ := List.head?_eq_some_iff.mp minus
            rw [exponentPart?_minus mark] at read
            obtain ⟨n, found, rfl⟩ := Option.map_eq_some_iff.mp read
            obtain ⟨run, rfl⟩ := digitRun?_eq_some_iff.mp found
            exact .minus mark run
          by_cases plus : rest.head? = some '+'
          · obtain ⟨ds, rfl⟩ := List.head?_eq_some_iff.mp plus
            rw [exponentPart?_plus mark] at read
            obtain ⟨n, found, rfl⟩ := Option.map_eq_some_iff.mp read
            obtain ⟨run, rfl⟩ := digitRun?_eq_some_iff.mp found
            exact .plus mark run
          · rw [exponentPart?_bare mark minus plus] at read
            obtain ⟨n, found, rfl⟩ := Option.map_eq_some_iff.mp read
            obtain ⟨run, rfl⟩ := digitRun?_eq_some_iff.mp found
            exact .bare mark run
        · have unmarked : exponentPart? (letter :: rest) = none := if_neg (by simpa using mark)
          rw [unmarked] at read
          cases read
  · intro spells
    cases spells with
    | none => rfl
    | @bare letter ds mark run =>
        have unsigned {c : Char} (sign : isDigit c = false) : ds.head? ≠ some c := fun first =>
          Bool.false_ne_true (sign.symm.trans (run.isDigit_head c first))
        rw [exponentPart?_bare mark (unsigned rfl) (unsigned rfl), digitRun?_eq_some_iff.mpr ⟨run, rfl⟩]
        rfl
    | plus mark run =>
        rw [exponentPart?_plus mark, digitRun?_eq_some_iff.mpr ⟨run, rfl⟩]
        rfl
    | minus mark run =>
        rw [exponentPart?_minus mark, digitRun?_eq_some_iff.mpr ⟨run, rfl⟩]
        rfl

theorem Exponent.head {e : Int} (spells : Exponent text e) : ∀ c ∈ text.head?, isDigit c = false ∧ c ≠ '.' := by
  have letter {c : Char} (mark : c = 'e' ∨ c = 'E') : isDigit c = false ∧ c ≠ '.' := by
    obtain rfl | rfl := mark <;> decide
  cases spells with
  | none => nofun
  | bare mark | plus mark | minus mark =>
      rintro c ⟨⟩
      exact letter mark

theorem exists_digits (text : List Char) : ∃ digits rest, text = digits ++ rest ∧
    (∀ c ∈ digits, isDigit c = true) ∧ ∀ c ∈ rest.head?, isDigit c = false := by
  refine ⟨text.takeWhile isDigit, text.dropWhile isDigit, List.takeWhile_append_dropWhile.symm,
    fun _ => List.mem_takeWhile_imp, fun c first => ?_⟩
  have stops := List.head?_dropWhile_not isDigit text
  rw [Option.mem_def.mp first] at stops
  simpa using stops

theorem decimal?_point (digits : ∀ c ∈ before, isDigit c = true) (digits' : ∀ c ∈ after, isDigit c = true)
    (stop : ∀ c ∈ rest.head?, isDigit c = false) : decimal? (before ++ '.' :: (after ++ rest)) =
      if before ++ after = [] then none
      else (exponentPart? rest).map fun e => ⟨Nat.ofDigitChars 10 (before ++ after) 0, e - after.length⟩ := by
  have spanned := span_isDigit ('.' :: (after ++ rest)) digits (by rintro c ⟨⟩; rfl)
  have spanned' := span_isDigit rest digits' stop
  unfold decimal?
  simp only [spanned, spanned', valueOfDigits_eq, Bool.and_eq_true, decide_eq_true_eq, List.append_eq_nil_iff]

theorem decimal?_bare (digits : ∀ c ∈ before, isDigit c = true)
    (stop : ∀ c ∈ rest.head?, isDigit c = false ∧ c ≠ '.') : decimal? (before ++ rest) =
      if before = [] then none
      else (exponentPart? rest).map fun e => ⟨Nat.ofDigitChars 10 before 0, e⟩ := by
  have spanned := span_isDigit rest digits fun c first => (stop c first).1
  unfold decimal?
  simp only [spanned]
  split
  · exact absurd rfl (stop '.' rfl).2
  · simp [valueOfDigits_eq]

theorem decimal?_eq_some_iff {d : Decimal} : decimal? text = some d ↔ SpellsDecimal text d := by
  constructor
  · obtain ⟨before, rest, rfl, digits, stop⟩ := exists_digits text
    by_cases point : rest.head? = some '.'
    · obtain ⟨more, rfl⟩ := List.head?_eq_some_iff.mp point
      obtain ⟨after, rest, rfl, digits', stop'⟩ := exists_digits more
      rw [decimal?_point digits digits' stop']
      split
      · nofun
      · next nonempty =>
        intro read
        obtain ⟨e, found, rfl⟩ := Option.map_eq_some_iff.mp read
        rw [← List.cons_append, ← List.append_assoc]
        exact .intro (.point ⟨nonempty, List.forall_mem_append.mpr ⟨digits, digits'⟩⟩) (exponentPart?_eq_some_iff.mp found)
    · have stop' : ∀ c ∈ rest.head?, isDigit c = false ∧ c ≠ '.' := by
        refine fun c first => ⟨stop c first, ?_⟩
        rintro rfl
        exact point first
      rw [decimal?_bare digits stop']
      split
      · nofun
      · next nonempty =>
        intro read
        obtain ⟨e, found, rfl⟩ := Option.map_eq_some_iff.mp read
        have spelled := SpellsDecimal.intro (.whole ⟨nonempty, digits⟩) (exponentPart?_eq_some_iff.mp found)
        simpa using spelled
  · rintro ⟨front, rear⟩
    have read := exponentPart?_eq_some_iff.mpr rear
    cases front with
    | whole run =>
        rw [decimal?_bare run.digits rear.head, if_neg run.nonempty, read]
        simp
    | point run =>
        obtain ⟨digits, digits'⟩ := List.forall_mem_append.mp run.digits
        rw [List.append_assoc, List.cons_append, decimal?_point digits digits' fun c first => (rear.head c first).1,
          if_neg run.nonempty, read]
        rfl

/-! Numbers. -/

inductive SpellsMagnitude : List Char → Float → Prop
  | decimal {text : List Char} {d : Decimal} (spells : SpellsDecimal text d) : SpellsMagnitude text d.toFloat
  | infinity {text : List Char} (word : text.map Char.toLower ∈ ["inf".toList, "infinity".toList]) :
      SpellsMagnitude text Scalar.infinity
  | nan {text : List Char} (word : text.map Char.toLower = "nan".toList) : SpellsMagnitude text Scalar.nan

inductive SpellsNumber : List Char → Float → Prop
  | bare {text : List Char} {v : Float} (spells : SpellsMagnitude text v) : SpellsNumber text v
  | plus {text : List Char} {v : Float} (spells : SpellsMagnitude text v) : SpellsNumber ('+' :: text) v
  | minus {text : List Char} {v : Float} (spells : SpellsMagnitude text v) : SpellsNumber ('-' :: text) (-v)

theorem forall_ascii {p : Char → Prop} (all : ∀ n < 128, p (Char.ofNat n)) {c : Char} (ascii : c.toNat < 128) : p c := by
  have this := all c.toNat ascii
  rwa [Char.ofNat_toNat] at this

theorem toNat_lt_of_isDigit {c : Char} (digit : isDigit c = true) : c.toNat < 128 := by
  unfold isDigit at digit
  simp only [Bool.and_eq_true, decide_eq_true_eq, Char.le_def, UInt32.le_iff_toNat_le] at digit
  exact digit.2.trans_lt (by decide)

theorem Mantissa.head {mantissa : List Char} (front : Mantissa mantissa before after) :
    ∃ c rest, mantissa = c :: rest ∧ (isDigit c = true ∨ c = '.') := by
  cases front with
  | whole run =>
      obtain ⟨c, rest, rfl⟩ := List.exists_cons_of_ne_nil run.nonempty
      exact ⟨c, rest, rfl, .inl (run.digits c List.mem_cons_self)⟩
  | point run =>
      cases before with
      | nil => exact ⟨'.', after, rfl, .inr rfl⟩
      | cons c before => exact ⟨c, before ++ '.' :: after, rfl, .inl (run.digits c List.mem_cons_self)⟩

theorem toLower_of_isDigit {c : Char} (digit : isDigit c = true) : c.toLower = c := by
  have all : ∀ n < 128, isDigit (Char.ofNat n) = true → (Char.ofNat n).toLower = Char.ofNat n := by decide +kernel
  exact forall_ascii (p := fun c => isDigit c = true → c.toLower = c) all (toNat_lt_of_isDigit digit) digit

theorem letter_of_toLower {c : Char} (lower : c.toLower = 'i' ∨ c.toLower = 'n') :
    isDigit c = false ∧ c ∉ ['.', '+', '-'] := by
  have only {d : Char} (same : c.toLower = d) (other : d ≠ 'i' ∧ d ≠ 'n') : False := by
    rw [same] at lower
    exact lower.elim other.1 other.2
  constructor
  · by_contra digit
    have digit : isDigit c = true := Bool.eq_true_of_not_eq_false digit
    refine only (toLower_of_isDigit digit) ⟨?_, ?_⟩ <;> rintro rfl <;> cases digit
  · intro sign
    simp only [List.mem_cons, List.not_mem_nil, or_false] at sign
    obtain rfl | rfl | rfl := sign <;> exact only rfl (by decide)

theorem exists_letter {word : List Char} (known : word ∈ ["inf".toList, "infinity".toList, "nan".toList])
    (spelled : text.map Char.toLower = word) :
    ∃ c rest, text = c :: rest ∧ isDigit c = false ∧ c ∉ ['.', '+', '-'] := by
  have letters : ∀ word ∈ ["inf".toList, "infinity".toList, "nan".toList],
      word.head? = some 'i' ∨ word.head? = some 'n' := by decide
  have first := letters word known
  cases text with
  | nil =>
      subst spelled
      exact first.elim nofun nofun
  | cons c rest =>
      subst spelled
      exact ⟨c, rest, rfl, letter_of_toLower (first.imp Option.some.inj Option.some.inj)⟩

theorem decimal?_of_letter {c : Char} (letter : isDigit c = false ∧ c ∉ ['.', '+', '-']) (rest : List Char) :
    decimal? (c :: rest) = none := by
  by_contra read
  obtain ⟨d, read⟩ := Option.ne_none_iff_exists'.mp read
  generalize same : c :: rest = text at read
  obtain ⟨front, -⟩ := decimal?_eq_some_iff.mp read
  obtain ⟨c', rest', rfl, known⟩ := front.head
  cases same
  rcases known with digit | rfl
  · exact Bool.false_ne_true (letter.1.symm.trans digit)
  · exact letter.2 List.mem_cons_self

theorem ofList_beq (cs : List Char) (s : String) : (String.ofList cs == s) = decide (cs = s.toList) := by
  rw [Bool.eq_iff_iff, beq_iff_eq, decide_eq_true_eq]
  exact ⟨fun same => by rw [← same, String.toList_ofList], fun same => by rw [same, String.ofList_toList]⟩

theorem magnitude?_eq_some_iff {v : Float} : magnitude? text = some v ↔ SpellsMagnitude text v := by
  constructor
  · intro read
    unfold magnitude? at read
    split at read
    · next d found =>
      cases read
      exact .decimal (decimal?_eq_some_iff.mp found)
    · simp only [ofList_beq, Bool.or_eq_true, decide_eq_true_eq] at read
      split at read
      · next word =>
        cases read
        exact .infinity (by simpa using word)
      · split at read
        · next word =>
          cases read
          exact .nan word
        · cases read
  · intro spells
    cases spells with
    | decimal spells =>
        unfold magnitude?
        rw [decimal?_eq_some_iff.mpr spells]
    | infinity word =>
        obtain ⟨c, rest, rfl, letter⟩ := exists_letter (List.mem_of_mem_take (i := 2) word) rfl
        unfold magnitude?
        simp only [decimal?_of_letter letter, ofList_beq, Bool.or_eq_true, decide_eq_true_eq]
        exact if_pos (by simpa using word)
    | nan word =>
        obtain ⟨c, rest, rfl, letter⟩ := exists_letter (by decide) word
        unfold magnitude?
        simp only [decimal?_of_letter letter, ofList_beq, word]
        rfl

theorem SpellsMagnitude.unsigned {v : Float} (spells : SpellsMagnitude text v) :
    ∃ c rest, text = c :: rest ∧ c ≠ '-' ∧ c ≠ '+' := by
  have apart {c : Char} (plain : isDigit c = true ∨ c = '.' ∨ isDigit c = false ∧ c ∉ ['.', '+', '-']) : c ≠ '-' ∧ c ≠ '+' := by
    constructor <;> rintro rfl <;> revert plain <;> decide
  cases spells with
  | decimal spells =>
      obtain ⟨front, rear⟩ := spells
      obtain ⟨c, rest, rfl, known⟩ := front.head
      exact ⟨c, _, rfl, apart (or_assoc.mp (.inl known))⟩
  | infinity word =>
      obtain ⟨c, rest, rfl, letter⟩ := exists_letter (List.mem_of_mem_take (i := 2) word) rfl
      exact ⟨c, rest, rfl, apart (.inr (.inr letter))⟩
  | nan word =>
      obtain ⟨c, rest, rfl, letter⟩ := exists_letter (by decide) word
      exact ⟨c, rest, rfl, apart (.inr (.inr letter))⟩

theorem number?_eq_some_iff {v : Float} : number? text = some v ↔ SpellsNumber text v := by
  constructor
  · intro read
    unfold number? at read
    split at read
    · obtain ⟨w, found, rfl⟩ := Option.map_eq_some_iff.mp read
      exact .minus (magnitude?_eq_some_iff.mp found)
    · exact .plus (magnitude?_eq_some_iff.mp read)
    · exact .bare (magnitude?_eq_some_iff.mp read)
  · intro spells
    cases spells with
    | bare spells =>
        obtain ⟨c, rest, rfl, minus, plus⟩ := spells.unsigned
        unfold number?
        split
        · next same => exact absurd (List.cons.inj same).1 minus
        · next same => exact absurd (List.cons.inj same).1 plus
        · exact magnitude?_eq_some_iff.mpr spells
    | plus spells => exact magnitude?_eq_some_iff.mpr spells
    | minus spells => exact Option.map_eq_some_iff.mpr ⟨_, magnitude?_eq_some_iff.mpr spells, rfl⟩

def SpellsFinite (text : List Char) (v : Float) : Prop := SpellsNumber text v ∧ Scalar.isFinite v = true

theorem finite?_eq_some_iff {v : Float} : finite? text = some v ↔ SpellsFinite text v := by
  unfold finite? SpellsFinite
  rw [Option.filter_eq_some_iff, number?_eq_some_iff]

end DriftField.Text
