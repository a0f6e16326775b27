import Mathlib
import DriftField.Decimal.Text
import DriftField.Proofs.Decimal.Exact
import DriftField.Text.Number
/-!
Positional texts read back: the reader finds the digits and the point that the printer wrote, so the plain
text of a finite number reads as that number.
-/

namespace DriftField.Text

theorem isDigit_eq (c : Char) : isDigit c = c.isDigit := by
  unfold isDigit Char.isDigit
  rw [Bool.eq_iff_iff]
  simp only [Bool.and_eq_true, decide_eq_true_eq]
  rfl

theorem halving_eq (depth : Nat) (ds : List Char) :
    valueOfDigits.halving depth ds = Nat.ofDigitChars 10 ds 0 := by
  induction depth generalizing ds with
  | zero =>
      rw [Nat.ofDigitChars_eq_foldl]
      rfl
  | succ depth induction =>
      have low : (ds.drop (ds.length - ds.length / 2)).length = ds.length / 2 := by
        rw [List.length_drop]
        omega
      unfold valueOfDigits.halving
      simp only [List.splitAt_eq, induction]
      conv_rhs => rw [← List.take_append_drop (ds.length - ds.length / 2) ds,
        Nat.ofDigitChars_append, Nat.ofDigitChars_eq_ofDigitChars_zero, low]
      rw [Nat.mul_comm]
      rfl

theorem valueOfDigits_eq (ds : List Char) :
    valueOfDigits ds = Nat.ofDigitChars 10 ds 0 := halving_eq _ ds

theorem span_isDigit {before : List Char} (rest : List Char)
    (digits : ∀ c ∈ before, isDigit c = true)
    (stop : ∀ c ∈ rest.head?, isDigit c = false) :
    (before ++ rest).span isDigit = (before, rest) := by
  rw [List.span_eq_takeWhile_dropWhile, List.takeWhile_append_of_pos digits,
    List.dropWhile_append_of_pos digits]
  cases rest with
  | nil => simp
  | cons c rest => simp [stop c rfl]

theorem decimal?_whole {before : List Char} (digits : ∀ c ∈ before, isDigit c = true)
    (nonempty : before ≠ []) : decimal? before = some ⟨valueOfDigits before, 0⟩ := by
  have spanned := span_isDigit [] digits (by simp)
  rw [List.append_nil] at spanned
  unfold decimal?
  simp only [spanned]
  simp [nonempty, exponentPart?]

theorem decimal?_fraction {before after : List Char}
    (digits : ∀ c ∈ before, isDigit c = true)
    (digits' : ∀ c ∈ after, isDigit c = true) (nonempty : before ≠ []) :
    decimal? (before ++ '.' :: after) =
      some ⟨valueOfDigits (before ++ after), -after.length⟩ := by
  have spanned := span_isDigit ('.' :: after) digits (by simp; decide)
  have spanned' := span_isDigit [] digits' (by simp)
  rw [List.append_nil] at spanned'
  unfold decimal?
  simp only [spanned, spanned']
  simp [nonempty, exponentPart?]

end DriftField.Text

namespace DriftField.Decimal

open Text

theorem isDigit_of_mem_digits {n : Nat} {c : Char} (h : c ∈ digits n) :
    isDigit c = true := by
  rw [isDigit_eq]
  exact Nat.isDigit_of_mem_toDigits (by decide) (by decide) h

theorem digits_ne_nil (n : Nat) : digits n ≠ [] := Nat.toDigits_ne_nil

theorem valueOfDigits_digits (n : Nat) : valueOfDigits (digits n) = n := by
  rw [valueOfDigits_eq]
  exact Nat.ofDigitChars_ten_toDigits

theorem isDigit_of_mem_zeros {n : Nat} {c : Char} (h : c ∈ List.replicate n '0') :
    isDigit c = true := by
  rw [List.eq_of_mem_replicate h]
  rfl

theorem valueOfDigits_zeros_append (n : Nat) (ds : List Char) :
    valueOfDigits (List.replicate n '0' ++ ds) = valueOfDigits ds := by
  rw [valueOfDigits_eq, valueOfDigits_eq, Nat.ofDigitChars_append,
    Nat.ofDigitChars_replicate_zero, Nat.mul_zero]

theorem valueOfDigits_append_zeros (n : Nat) (ds : List Char) :
    valueOfDigits (ds ++ List.replicate n '0') = valueOfDigits ds * 10 ^ n := by
  rw [valueOfDigits_eq, valueOfDigits_eq, Nat.ofDigitChars_append,
    Nat.ofDigitChars_replicate_zero, Nat.mul_comm]

inductive Positional : List Char → Decimal → Prop
  | whole {before : List Char} (nonempty : before ≠ [])
      (digits : ∀ c ∈ before, isDigit c = true) :
      Positional before ⟨valueOfDigits before, 0⟩
  | fraction {before after : List Char} (nonempty : before ≠ [])
      (digits : ∀ c ∈ before, isDigit c = true)
      (digits' : ∀ c ∈ after, isDigit c = true) :
      Positional (before ++ '.' :: after)
        ⟨valueOfDigits (before ++ after), -after.length⟩

namespace Positional

theorem decimal?_eq {text : List Char} {d : Decimal} (h : Positional text d) :
    decimal? text = some d := by
  cases h with
  | whole nonempty digits => exact decimal?_whole digits nonempty
  | fraction nonempty digits digits' => exact decimal?_fraction digits digits' nonempty

theorem exists_cons {text : List Char} {d : Decimal} (h : Positional text d) :
    ∃ c rest, text = c :: rest ∧ isDigit c = true := by
  cases h with
  | whole nonempty digits =>
      obtain ⟨c, rest, rfl⟩ := List.exists_cons_of_ne_nil nonempty
      exact ⟨c, rest, rfl, digits c List.mem_cons_self⟩
  | @fraction before after nonempty digits digits' =>
      obtain ⟨c, rest, rfl⟩ := List.exists_cons_of_ne_nil nonempty
      exact ⟨c, rest ++ '.' :: after, rfl, digits c List.mem_cons_self⟩

theorem digit_or_point {text : List Char} {d : Decimal} (h : Positional text d)
    {c : Char} (member : c ∈ text) : isDigit c = true ∨ c = '.' := by
  cases h with
  | whole nonempty digits => exact .inl (digits c member)
  | fraction nonempty digits digits' =>
      rcases List.mem_append.mp member with before | after
      · exact .inl (digits c before)
      · rcases List.mem_cons.mp after with point | after
        · exact .inr point
        · exact .inl (digits' c after)

end Positional

theorem toFloat_zero (exponent : Int) : toFloat ⟨0, exponent⟩ = 0.0 := by
  unfold toFloat
  exact if_pos rfl

theorem isFinite_infinity : Scalar.isFinite Scalar.infinity = false := by decide

theorem toFloat_scaled {n e : Nat} (finite : Scalar.isFinite (toFloat ⟨n, .ofNat e⟩) = true) :
    toFloat ⟨n * 10 ^ e, 0⟩ = toFloat ⟨n, .ofNat e⟩ := by
  unfold toFloat at finite ⊢
  by_cases zero : n = 0
  · rw [if_pos zero, if_pos (by rw [zero, Nat.zero_mul])]
  · have scaled : n * 10 ^ e ≠ 0 := by positivity
    rw [if_neg zero] at finite
    rw [if_neg scaled, if_neg zero]
    simp only at finite ⊢
    split at finite
    · rw [isFinite_infinity] at finite
      contradiction
    · next near =>
      have written : n * 10 ^ e * power 10 0 = n * power 10 e := Nat.mul_one _
      rw [if_neg (by decide), if_neg near, written]

theorem positional_fraction (coefficient n : Nat) :
    ∃ before after, positional ⟨coefficient, .negSucc n⟩ = before ++ '.' :: after ∧
      before ≠ [] ∧ after.length = n + 1 ∧
      before ++ after =
        List.replicate (n + 2 - (digits coefficient).length) '0' ++ digits coefficient := by
  let padded := List.replicate (n + 2 - (digits coefficient).length) '0' ++ digits coefficient
  have long : n + 2 ≤ padded.length := by
    rw [List.length_append, List.length_replicate]
    omega
  refine ⟨padded.take (padded.length - (n + 1)), padded.drop (padded.length - (n + 1)),
    rfl, ?_, ?_, List.take_append_drop _ _⟩
  · apply List.ne_nil_of_length_pos
    rw [List.length_take]
    omega
  · rw [List.length_drop]
    omega

theorem exists_positional (d : Decimal) :
    ∃ spelled, Positional (positional d) spelled ∧
      (Scalar.isFinite d.toFloat = true → spelled.toFloat = d.toFloat) := by
  obtain ⟨coefficient, exponent⟩ := d
  cases exponent with
  | ofNat n =>
      by_cases zero : coefficient = 0
      · have written : positional ⟨coefficient, .ofNat n⟩ = digits coefficient := if_pos zero
        rw [written]
        refine ⟨_, .whole (digits_ne_nil coefficient) (fun c => isDigit_of_mem_digits), ?_⟩
        rw [valueOfDigits_digits, zero]
        intro _
        rw [toFloat_zero, toFloat_zero]
      · have written : positional ⟨coefficient, .ofNat n⟩ =
            digits coefficient ++ List.replicate n '0' := if_neg zero
        rw [written]
        refine ⟨_, .whole (by simp [digits_ne_nil]) ?_, ?_⟩
        · intro c member
          rcases List.mem_append.mp member with digit | zero
          · exact isDigit_of_mem_digits digit
          · exact isDigit_of_mem_zeros zero
        · rw [valueOfDigits_append_zeros, valueOfDigits_digits]
          exact toFloat_scaled
  | negSucc n =>
      obtain ⟨before, after, written, nonempty, places, padded⟩ :=
        positional_fraction coefficient n
      have digits : ∀ c ∈ before ++ after, isDigit c = true := by
        rw [padded]
        intro c member
        rcases List.mem_append.mp member with zero | digit
        · exact isDigit_of_mem_zeros zero
        · exact isDigit_of_mem_digits digit
      rw [written]
      refine ⟨_, .fraction nonempty (fun c member => digits c (by simp [member]))
        (fun c member => digits c (by simp [member])), ?_⟩
      rw [padded, valueOfDigits_zeros_append, valueOfDigits_digits, places]
      exact fun _ => rfl

theorem exists_positional_shortest {v : Float} (tie : Tie)
    (finite : Scalar.isFinite v = true) (nonnegative : Scalar.isNegative v = false) :
    ∃ d, Positional (positional (shortest tie v)) d ∧ d.toFloat = v := by
  obtain ⟨d, spelled, value⟩ := exists_positional (shortest tie v)
  have exact := toFloat_shortest tie finite nonnegative
  rw [exact] at value
  exact ⟨d, spelled, value finite⟩

theorem Positional.magnitude?_eq {text : List Char} {d : Decimal} (h : Positional text d) :
    magnitude? text = some d.toFloat := by
  unfold magnitude?
  rw [h.decimal?_eq]

theorem Positional.number?_eq {text : List Char} {d : Decimal} (h : Positional text d) :
    number? text = some d.toFloat := by
  have magnitude := h.magnitude?_eq
  obtain ⟨c, rest, rfl, digit⟩ := h.exists_cons
  unfold number?
  split
  · next same => cases same; cases digit
  · next same => cases same; cases digit
  · exact magnitude

/-- The plain text of a finite number is its sign and a positional text of its magnitude. -/
theorem plain_of_isFinite {v : Float} (finite : Scalar.isFinite v = true) :
    ∃ text d, Positional text d ∧ d.toFloat = v.abs ∧ plain v = signed v text := by
  obtain ⟨d, spelled, value⟩ := exists_positional_shortest .upward
    ((Scalar.isFinite_abs v).trans finite) (Scalar.isNegative_abs v)
  refine ⟨_, d, spelled, value, ?_⟩
  unfold plain
  rw [Scalar.not_isNaN_of_isFinite finite, if_neg Bool.false_ne_true, if_pos finite]

theorem plain_of_not_isFinite {v : Float} (infinite : Scalar.isFinite v = false) :
    plain v ∈ [['N', 'a', 'N'], ['-', 'i', 'n', 'f'], ['i', 'n', 'f']] := by
  unfold plain signed
  rw [infinite, if_neg Bool.false_ne_true]
  split
  · decide
  · split
    · decide
    · decide

theorem mem_plain {v : Float} {c : Char} (member : c ∈ plain v) :
    isDigit c = true ∨ c ∈ ['.', '-', 'N', 'a', 'i', 'n', 'f'] := by
  cases finite : Scalar.isFinite v with
  | true =>
      obtain ⟨text, d, spelled, -, written⟩ := plain_of_isFinite finite
      have magnitude (among : c ∈ text) : isDigit c = true ∨ c ∈ ['.', '-', 'N', 'a', 'i', 'n', 'f'] := by
        rcases spelled.digit_or_point among with digit | rfl
        · exact .inl digit
        · exact .inr List.mem_cons_self
      rw [written] at member
      unfold signed at member
      split at member
      · rcases List.mem_cons.mp member with rfl | among
        · exact .inr (by decide)
        · exact magnitude among
      · exact magnitude member
  | false =>
      have letters : ∀ text ∈ [['N', 'a', 'N'], ['-', 'i', 'n', 'f'], ['i', 'n', 'f']],
          text ⊆ ['.', '-', 'N', 'a', 'i', 'n', 'f'] := by decide
      exact .inr (letters _ (plain_of_not_isFinite finite) member)

/-- The plain text of a finite number reads as that number, its sign included; no other text of a number does. -/
theorem finite?_plain (v : Float) : finite? (plain v) = if Scalar.isFinite v then some v else none := by
  unfold finite?
  cases finite : Scalar.isFinite v with
  | true =>
      obtain ⟨text, d, spelled, value, written⟩ := plain_of_isFinite finite
      have read : number? (plain v) = some v := by
        rw [written]
        unfold signed
        cases sign : Scalar.isNegative v with
        | true =>
            have negated : number? ('-' :: text) = some (-d.toFloat) := by
              change (magnitude? text).map (- ·) = _
              rw [spelled.magnitude?_eq]
              rfl
            rw [if_pos rfl, negated, value, Scalar.neg_abs sign]
        | false =>
            rw [if_neg Bool.false_ne_true, spelled.number?_eq, value, Scalar.abs_eq_self sign]
      rw [read, if_pos rfl]
      exact Option.filter_some_pos finite
  | false =>
      have unread : ∀ text ∈ [['N', 'a', 'N'], ['-', 'i', 'n', 'f'], ['i', 'n', 'f']],
          (number? text).filter Scalar.isFinite = none := by decide +kernel
      rw [if_neg Bool.false_ne_true]
      exact unread _ (plain_of_not_isFinite finite)

end DriftField.Decimal
