import Mathlib
import DriftField.Proofs.Decimal.Reading
import DriftField.Proofs.Expr.Source
import DriftField.Share
/-!
Share codes read back: the fields that are written hold no comma and no blank, and each of them reads as what was
written.
-/

namespace DriftField

namespace Text

variable {separator : Char}

theorem pieces_of_not_mem {text : List Char} (absent : separator ∉ text) : pieces separator text = [text] := by
  have uncut : cut? separator text = none := by
    unfold cut?
    rw [List.dropWhile_eq_nil_iff.mpr]
    intro c member
    simp only [decide_eq_true_eq]
    rintro rfl
    exact absent member
  rw [pieces]
  split
  · rfl
  · next cut =>
    rw [uncut] at cut
    cases cut

theorem pieces_intercalate {fields : List (List Char)} (nonempty : fields ≠ [])
    (absent : ∀ field ∈ fields, separator ∉ field) :
    pieces separator (List.intercalate [separator] fields) = fields := by
  induction fields with
  | nil => exact absurd rfl nonempty
  | cons first rest induction =>
      have absent' := absent first List.mem_cons_self
      cases rest with
      | nil =>
          rw [List.intercalate_singleton]
          exact pieces_of_not_mem absent'
      | cons second rest =>
          rw [List.intercalate_cons_cons, List.append_assoc, List.singleton_append, pieces_append absent',
            induction (List.cons_ne_nil _ _) fun field member => absent field (List.mem_cons_of_mem _ member)]

theorem mem_intercalate {fields : List (List Char)} {c : Char}
    (member : c ∈ List.intercalate [separator] fields) : c = separator ∨ ∃ field ∈ fields, c ∈ field := by
  induction fields with
  | nil => cases member
  | cons first rest induction =>
      cases rest with
      | nil =>
          rw [List.intercalate_singleton] at member
          exact .inr ⟨first, List.mem_cons_self, member⟩
      | cons second rest =>
          rw [List.intercalate_cons_cons, List.append_assoc, List.singleton_append] at member
          rcases List.mem_append.mp member with within | after
          · exact .inr ⟨first, List.mem_cons_self, within⟩
          · rcases List.mem_cons.mp after with same | later
            · exact .inl same
            · obtain same | ⟨field, member', within⟩ := induction later
              · exact .inl same
              · exact .inr ⟨field, List.mem_cons_of_mem _ member', within⟩

theorem dropWhile_isBlank {before text : List Char} (blank : ∀ c ∈ before, isBlank c = true)
    (first : ∀ c ∈ text.head?, isBlank c = false) : (before ++ text).dropWhile isBlank = text := by
  rw [List.dropWhile_append_of_pos blank]
  cases text with
  | nil => rfl
  | cons c rest =>
      apply List.dropWhile_cons_of_neg
      rw [first c rfl]
      exact Bool.false_ne_true

/-- Blanks around a text without blanks are trimmed, and nothing else. -/
theorem trim_padded {before text after : List Char} (blank : ∀ c ∈ before, isBlank c = true)
    (solid : ∀ c ∈ text, isBlank c = false) (blank' : ∀ c ∈ after, isBlank c = true) :
    trim (before ++ text ++ after) = text := by
  have start : trimStart (before ++ text ++ after) = text ++ if text = [] then [] else after := by
    unfold trimStart
    cases text with
    | nil =>
        rw [List.append_nil]
        exact List.dropWhile_eq_nil_iff.mpr (List.forall_mem_append.mpr ⟨blank, blank'⟩)
    | cons c rest =>
        rw [List.append_assoc, if_neg (List.cons_ne_nil c rest)]
        exact dropWhile_isBlank blank fun d first => solid d (Option.mem_some_iff.mp first ▸ List.mem_cons_self)
  have rear : ∀ c ∈ (if text = [] then [] else after).reverse, isBlank c = true := by
    intro c member
    split at member
    · cases member
    · exact blank' c (List.mem_reverse.mp member)
  unfold trim trimEnd
  rw [start, List.reverse_append, dropWhile_isBlank rear, List.reverse_reverse]
  exact fun c last => solid c (List.mem_reverse.mp (List.mem_of_mem_head? last))

theorem trim_of_no_blank {text : List Char} (solid : ∀ c ∈ text, isBlank c = false) : trim text = text := by
  have bare := @trim_padded [] text [] (List.forall_mem_nil _) solid (List.forall_mem_nil _)
  rwa [List.nil_append, List.append_nil] at bare

theorem digit?_eq {c : Char} (digit : isDigit c = true) : digit? c = some (c.toNat - '0'.toNat) := if_pos digit

theorem le_ofDigitChars (ds : List Char) (n : Nat) : n ≤ Nat.ofDigitChars 10 ds n := by
  rw [Nat.ofDigitChars_eq_ofDigitChars_zero]
  have scaled : 1 * n ≤ 10 ^ ds.length * n := Nat.mul_le_mul_right n (Nat.one_le_pow _ _ (by decide))
  omega

theorem accumulate_eq {bound : Nat} {ds : List Char} (digits : ∀ c ∈ ds, isDigit c = true) {n : Nat}
    (fits : Nat.ofDigitChars 10 ds n < bound) :
    whole.accumulate bound n ds = .ok (Nat.ofDigitChars 10 ds n) := by
  induction ds generalizing n with
  | nil => rfl
  | cons c ds induction =>
      rw [Nat.ofDigitChars_cons] at fits ⊢
      have below := (le_ofDigitChars ds (10 * n + (c.toNat - '0'.toNat))).trans_lt fits
      rw [whole.accumulate, digit?_eq (digits c List.mem_cons_self)]
      simp only
      rw [if_neg (Nat.not_le.mpr below)]
      exact induction (fun c member => digits c (List.mem_cons_of_mem _ member)) fits

theorem word_digits {n : Nat} (fits : n < wordBound) : word (Decimal.digits n) = .ok n := by
  have value : Nat.ofDigitChars 10 (Decimal.digits n) 0 = n := Nat.ofDigitChars_ten_toDigits
  have digits : ∀ c ∈ Decimal.digits n, isDigit c = true := fun c => Decimal.isDigit_of_mem_digits
  have read : whole.accumulate wordBound 0 (Decimal.digits n) = .ok n := by
    rw [accumulate_eq digits (by rwa [value]), value]
  unfold word whole
  split
  · next none => exact absurd none (Decimal.digits_ne_nil n)
  · next plus =>
    rw [plus] at digits
    cases digits '+' List.mem_cons_self
  · exact read

theorem lt_of_accumulate {bound n m : Nat} {ds : List Char} (fits : n < bound)
    (read : whole.accumulate bound n ds = .ok m) : m < bound := by
  induction ds generalizing n with
  | nil =>
      cases read
      exact fits
  | cons c ds induction =>
      unfold whole.accumulate at read
      split at read
      · cases read
      · split at read
        · cases read
        · next below => exact induction (Nat.lt_of_not_le below) read

theorem lt_of_word {text : List Char} {n : Nat} (read : word text = .ok n) : n < wordBound := by
  have some : 0 < wordBound := by decide
  unfold word whole at read
  split at read
  · cases read
  · exact lt_of_accumulate some read
  · exact lt_of_accumulate some read

theorem isFinite_of_finite? {text : List Char} {v : Float} (read : finite? text = some v) :
    Scalar.isFinite v = true :=
  (Option.filter_eq_some_iff.mp read).2

end Text

theorem isBlank_of_isDigit {c : Char} (digit : Text.isDigit c = true) : Text.isBlank c = false := by
  unfold Text.isDigit at digit
  simp only [Bool.and_eq_true, decide_eq_true_eq, Char.le_def, UInt32.le_iff_toNat_le] at digit
  obtain ⟨low, high⟩ := digit
  change 48 ≤ c.toNat at low
  change c.toNat ≤ 57 at high
  unfold Text.isBlank
  generalize c.toNat = n at low high
  simp
  omega

namespace Share

def IsFieldText (text : List Char) : Prop := ∀ c ∈ text, Text.isBlank c = false ∧ c ≠ ','

theorem field_of_isDigit {c : Char} (digit : Text.isDigit c = true) : Text.isBlank c = false ∧ c ≠ ',' := by
  refine ⟨isBlank_of_isDigit digit, ?_⟩
  rintro rfl
  cases digit

theorem isFieldText_digits (n : Nat) : IsFieldText (Decimal.digits n) := fun _ member =>
  field_of_isDigit (Decimal.isDigit_of_mem_digits member)

theorem isFieldText_plain (v : Float) : IsFieldText (Decimal.plain v) := by
  intro c member
  have letters : ['.', '-', 'N', 'a', 'i', 'n', 'f'].all (fun c => !Text.isBlank c && c != ',') = true := rfl
  rcases Decimal.mem_plain member with digit | letter
  · exact field_of_isDigit digit
  · have other := List.all_eq_true.mp letters c letter
    simpa using other

def fields (s : Share) : List (List Char) :=
  [Decimal.digits s.seed.toNat, Decimal.digits s.count, Decimal.plain s.flow, Decimal.plain s.scale,
    Decimal.plain s.decay]

theorem isFieldText_of_mem_fields {s : Share} {field : List Char} (member : field ∈ s.fields) :
    IsFieldText field := by
  unfold fields at member
  simp only [List.mem_cons, List.not_mem_nil, or_false] at member
  rcases member with rfl | rfl | rfl | rfl | rfl
  · exact isFieldText_digits _
  · exact isFieldText_digits _
  · exact isFieldText_plain _
  · exact isFieldText_plain _
  · exact isFieldText_plain _

theorem toList_encode (s : Share) : s.encode.toList = List.intercalate [','] s.fields := by
  unfold encode
  rw [String.toList_ofList]
  rfl

theorem body_padded {before mark code after : String} (blank : ∀ c ∈ before.toList, Text.isBlank c = true)
    (blank' : ∀ c ∈ after.toList, Text.isBlank c = true) (marked : mark = "" ∨ mark = "#")
    (solid : ∀ c ∈ code.toList, Text.isBlank c = false) (unmarked : code.toList.head? ≠ some '#') :
    body (before ++ mark ++ code ++ after) = code.toList := by
  have trimmed : Text.trim (before ++ mark ++ code ++ after).toList = mark.toList ++ code.toList := by
    simp only [String.toList_append]
    rw [List.append_assoc before.toList]
    refine Text.trim_padded blank (List.forall_mem_append.mpr ⟨?_, solid⟩) blank'
    obtain rfl | rfl := marked
    · exact List.forall_mem_nil _
    · exact List.forall_mem_singleton.mpr (by decide)
  unfold body
  rw [trimmed]
  obtain rfl | rfl := marked
  · rw [show "".toList = [] from rfl, List.nil_append]
    split
    · next same => exact absurd (congrArg List.head? same) unmarked
    · rfl
  · rfl

theorem head?_encode (s : Share) : ∃ c, s.encode.toList.head? = some c ∧ Text.isDigit c = true := by
  obtain ⟨c, digits, first⟩ := List.exists_cons_of_ne_nil (Decimal.digits_ne_nil s.seed.toNat)
  refine ⟨c, ?_, ?_⟩
  · rw [toList_encode]
    unfold fields
    rw [List.intercalate_cons_cons, first]
    rfl
  · apply Decimal.isDigit_of_mem_digits (n := s.seed.toNat)
    rw [first]
    exact List.mem_cons_self

theorem body_encode_padded {before mark after : String} (s : Share)
    (blank : ∀ c ∈ before.toList, Text.isBlank c = true) (blank' : ∀ c ∈ after.toList, Text.isBlank c = true)
    (marked : mark = "" ∨ mark = "#") :
    body (before ++ mark ++ s.encode ++ after) = List.intercalate [','] s.fields := by
  rw [← toList_encode]
  apply body_padded blank blank' marked
  · intro c member
    rw [toList_encode] at member
    obtain rfl | ⟨field, member', within⟩ := Text.mem_intercalate member
    · decide +kernel
    · exact (isFieldText_of_mem_fields member' c within).1
  · obtain ⟨c, first, digit⟩ := s.head?_encode
    rw [first]
    rintro ⟨⟩
    cases digit

theorem body_encode (s : Share) : body s.encode = List.intercalate [','] s.fields := by
  have none : ∀ c ∈ "".toList, Text.isBlank c = true := List.forall_mem_nil _
  have bare := s.body_encode_padded none none (.inl rfl)
  rwa [String.empty_append, String.empty_append, String.append_empty] at bare

theorem pieces_encode (s : Share) : (Text.pieces ',' (body s.encode)).map Text.trim = s.fields := by
  have whole : s.fields ≠ [] := List.cons_ne_nil _ _
  have absent : ∀ field ∈ s.fields, ',' ∉ field := by
    intro field member comma
    exact (isFieldText_of_mem_fields member ',' comma).2 rfl
  rw [body_encode, Text.pieces_intercalate whole absent]
  refine (List.map_congr_left fun field member => ?_).trans (List.map_id _)
  exact Text.trim_of_no_blank fun c within => (isFieldText_of_mem_fields member c within).1

theorem seedOf_digits (seed : UInt64) : seedOf (Decimal.digits seed.toNat) = .ok seed := by
  unfold seedOf
  rw [Text.word_digits seed.toNat_lt]
  exact congrArg Except.ok UInt64.ofNat_toNat

/-- The share with the standard value of every setting that is not finite. -/
def mended (s : Share) : Share :=
  { s with
    flow := if Scalar.isFinite s.flow then s.flow else (ofSeed s.seed).flow
    scale := if Scalar.isFinite s.scale then s.scale else (ofSeed s.seed).scale
    decay := if Scalar.isFinite s.decay then s.decay else (ofSeed s.seed).decay }

theorem decode_encode (s : Share) (fits : s.count < UInt64.size) : decode s.encode = .ok s.mended := by
  have orElse (v fallback : Float) :
      (Text.finite? (Decimal.plain v)).getD fallback = if Scalar.isFinite v then v else fallback := by
    rw [Decimal.finite?_plain]
    split <;> rfl
  have comma : ',' ∈ body s.encode := by
    rw [body_encode]
    unfold fields
    rw [List.intercalate_cons_cons]
    exact List.mem_append_left _ (List.mem_append_right _ List.mem_cons_self)
  unfold decode
  simp only
  rw [if_neg (List.ne_nil_of_mem comma), if_neg (not_not.mpr comma), pieces_encode]
  unfold fields
  simp only [seedOf_digits, Text.word_digits fits, orElse]
  rfl

theorem decode_encode_of_isFinite {s : Share} (fits : s.count < UInt64.size)
    (flow : Scalar.isFinite s.flow = true) (scale : Scalar.isFinite s.scale = true)
    (decay : Scalar.isFinite s.decay = true) : decode s.encode = .ok s := by
  rw [decode_encode s fits]
  unfold mended
  rw [if_pos flow, if_pos scale, if_pos decay]

theorem decode_congr {text other : String} (same : body text = body other) : decode text = decode other := by
  unfold decode
  rw [same]

structure Settled (s : Share) : Prop where
  count : s.count < UInt64.size
  flow : Scalar.isFinite s.flow = true
  scale : Scalar.isFinite s.scale = true
  decay : Scalar.isFinite s.decay = true

theorem settled_ofSeed (seed : UInt64) : (ofSeed seed).Settled where
  count := show 300 < UInt64.size by decide
  flow := show Scalar.isFinite 4.0 = true by decide
  scale := show Scalar.isFinite 4.0 = true by decide
  decay := show Scalar.isFinite 0.95 = true by decide

theorem isFinite_getD {field : List Char} {fallback : Float} (finite : Scalar.isFinite fallback = true) :
    Scalar.isFinite ((Text.finite? field).getD fallback) = true := by
  cases read : Text.finite? field with
  | none => exact finite
  | some v => exact Text.isFinite_of_finite? read

theorem getD_word_lt {field : List Char} {fallback : Nat} (fits : fallback < UInt64.size) :
    (Text.word field).toOption.getD fallback < UInt64.size := by
  cases read : Text.word field with
  | error fault => exact fits
  | ok n => exact Text.lt_of_word read

theorem settled_of_decode {text : String} {s : Share} (read : decode text = .ok s) : s.Settled := by
  unfold decode at read
  simp only at read
  split at read
  · cases read
  · split at read
    · obtain ⟨seed, -, rfl⟩ := exists_of_map_eq_ok read
      exact settled_ofSeed seed
    · split at read
      · obtain ⟨standard, parsed, filled⟩ := exists_of_bind_eq_ok read
        obtain ⟨seed, -, rfl⟩ := exists_of_map_eq_ok parsed
        cases filled
        have settled := settled_ofSeed seed
        exact ⟨getD_word_lt settled.count, isFinite_getD settled.flow, isFinite_getD settled.scale,
          isFinite_getD settled.decay⟩
      · cases read

/-- A share code reads back as what was written, except that settings which are not finite are replaced, also with
blanks around it and a number sign before it; and whatever is read is finite and reads back as itself. -/
theorem reads_back :
    (∀ s : Share, s.count < UInt64.size →
      decode s.encode = .ok s.mended ∧
      ∀ before mark after : String, (∀ c ∈ before.toList, Text.isBlank c = true) → mark = "" ∨ mark = "#" →
        (∀ c ∈ after.toList, Text.isBlank c = true) → decode (before ++ mark ++ s.encode ++ after) = .ok s.mended) ∧
    (∀ text s, decode text = .ok s →
      Scalar.isFinite s.flow = true ∧ Scalar.isFinite s.scale = true ∧ Scalar.isFinite s.decay = true ∧
        decode s.encode = .ok s) := by
  constructor
  · intro s fits
    have bare := decode_encode s fits
    refine ⟨bare, fun before mark after blank marked blank' => ?_⟩
    have same : body (before ++ mark ++ s.encode ++ after) = body s.encode := by
      rw [s.body_encode_padded blank blank' marked, s.body_encode]
    rw [decode_congr same, bare]
  · intro text s read
    have settled := settled_of_decode read
    exact ⟨settled.flow, settled.scale, settled.decay,
      decode_encode_of_isFinite settled.count settled.flow settled.scale settled.decay⟩

theorem boundless_reads_back :
    decode "\t #7,3,inf,-2.5,NaN\n" = .ok ⟨7, 3, 4.0, -2.5, 0.95⟩ ∧
      decode (⟨7, 3, 4.0, -2.5, 0.95⟩ : Share).encode = .ok ⟨7, 3, 4.0, -2.5, 0.95⟩ := by
  have written : (⟨7, 3, Scalar.infinity, -2.5, Scalar.nan⟩ : Share).encode = "7,3,inf,-2.5,NaN" := by decide +kernel
  have replaced : (⟨7, 3, Scalar.infinity, -2.5, Scalar.nan⟩ : Share).mended = ⟨7, 3, 4.0, -2.5, 0.95⟩ := by rfl
  have padded := (reads_back.1 ⟨7, 3, Scalar.infinity, -2.5, Scalar.nan⟩ (by decide)).2 "\t " "#" "\n"
    (List.all_eq_true.mp (by decide)) (.inr rfl) (List.all_eq_true.mp (by decide))
  rw [written, replaced] at padded
  exact ⟨padded, (reads_back.2 _ _ padded).2.2.2⟩

end Share

end DriftField
