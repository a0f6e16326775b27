import Mathlib
import DriftField.Fault
import DriftField.Proofs.Text.Fields
import DriftField.Proofs.Text.Number
/-!
The texts that are share codes. Blanks around a text and a number sign before it aside, a code is a seed alone or at
least five fields with commas between them, the first of which is a seed. Each of the next four settles one setting, by
the number that it spells or by the standard value.
-/

namespace DriftField.Share

open Text

variable {text : String} {b : List Char} {fields : List (List Char)} {s : Share} {fault : ShareFault}

/-- The text is the body with blanks around it and perhaps a number sign before it. -/
def Stripped (text b : List Char) : Prop :=
  ∃ core, Trimmed text core ∧ (core = '#' :: b ∨ core = b ∧ core.head? ≠ some '#')

def Fields (b : List Char) (fields : List (List Char)) : Prop :=
  ∃ raws, raws ≠ [] ∧ (∀ raw ∈ raws, ',' ∉ raw) ∧ b = List.intercalate [','] raws ∧ List.Forall₂ Trimmed raws fields

/-- A setting has the value that its field spells, and the standard value when the field spells none. -/
def Settles {α : Type} (spells : α → Prop) (standard value : α) : Prop :=
  spells value ∨ (∀ v, ¬ spells v) ∧ value = standard

inductive Spells : List Char → Share → Prop
  | seed {b : List Char} {seed : UInt64} (alone : ',' ∉ b) (read : SpellsWord b seed.toNat) : Spells b (ofSeed seed)
  | fields {b seed count flow scale decay : List Char} {rest : List (List Char)} {s : Share}
      (cut : Fields b (seed :: count :: flow :: scale :: decay :: rest)) (read : SpellsWord seed s.seed.toNat)
      (settledCount : Settles (SpellsWord count) (ofSeed s.seed).count s.count)
      (settledFlow : Settles (SpellsFinite flow) (ofSeed s.seed).flow s.flow)
      (settledScale : Settles (SpellsFinite scale) (ofSeed s.seed).scale s.scale)
      (settledDecay : Settles (SpellsFinite decay) (ofSeed s.seed).decay s.decay) : Spells b s

/-- The body of a text that is no code, and what is wrong with it. -/
inductive Refused : List Char → ShareFault → Prop
  | empty : Refused [] .empty
  | seed {b : List Char} {fault : WholeFault} (nonempty : b ≠ []) (alone : ',' ∉ b) (unread : word b = .error fault) :
      Refused b (.badSeed (String.ofList b) fault)
  | few {b : List Char} {fields : List (List Char)} (comma : ',' ∈ b) (cut : Fields b fields) (few : fields.length < 5) :
      Refused b (.tooFewFields fields.length)
  | field {b seed : List Char} {rest : List (List Char)} {fault : WholeFault} (cut : Fields b (seed :: rest))
      (many : 4 ≤ rest.length) (unread : word seed = .error fault) : Refused b (.badSeed (String.ofList seed) fault)

/-- The body is a seed, or it has five fields or more and the first is a seed. -/
def Acceptable (b : List Char) : Prop :=
  b ≠ [] ∧ (',' ∉ b ∧ (∃ n, SpellsWord b n) ∨
    ∃ seed rest, Fields b (seed :: rest) ∧ 4 ≤ rest.length ∧ ∃ n, SpellsWord seed n)

theorem body_eq_iff : body text = b ↔ Stripped text.toList b := by
  unfold body Stripped
  constructor
  · intro stripped
    refine ⟨trim text.toList, trimmed_trim _, ?_⟩
    split at stripped
    · next rest marked =>
      rw [marked, stripped]
      exact .inl rfl
    · next unmarked =>
      refine .inr ⟨stripped, fun marked => ?_⟩
      obtain ⟨rest, marked⟩ := List.head?_eq_some_iff.mp marked
      exact unmarked rest marked
  · rintro ⟨core, trimmed, marked | ⟨rfl, unmarked⟩⟩
    · rw [trimmed.trim_eq, marked]
      rfl
    · rw [trimmed.trim_eq]
      split
      · exact absurd rfl unmarked
      · rfl

theorem forall₂_trimmed_iff {raws : List (List Char)} : List.Forall₂ Trimmed raws fields ↔ raws.map trim = fields := by
  rw [← List.forall₂_eq_eq_eq, List.forall₂_map_left_iff]
  simp only [trim_eq_iff]

theorem fields_iff : Fields b fields ↔ (pieces ',' b).map trim = fields := by
  unfold Fields
  simp only [forall₂_trimmed_iff]
  constructor
  · rintro ⟨raws, nonempty, absent, joined, trimmed⟩
    rw [pieces_eq_iff.mpr ⟨nonempty, absent, joined⟩, trimmed]
  · rintro trimmed
    obtain ⟨nonempty, absent, joined⟩ := pieces_eq_iff.mp (rfl : pieces ',' b = _)
    exact ⟨_, nonempty, absent, joined, trimmed⟩

theorem comma_of_fields (cut : Fields b fields) (many : 2 ≤ fields.length) : ',' ∈ b := by
  by_contra absent
  rw [fields_iff, pieces_of_not_mem absent] at cut
  subst cut
  exact absurd many (Nat.not_le.mpr Nat.one_lt_two)

theorem seedOf_eq_ok_iff {field : List Char} {seed : UInt64} : seedOf field = .ok seed ↔ SpellsWord field seed.toNat := by
  rw [← word_eq_ok_iff]
  unfold seedOf
  constructor
  · intro read
    split at read
    · next n found =>
      cases read
      rw [found, UInt64.toNat_ofNat_of_lt' (lt_of_word found)]
    · cases read
  · intro found
    rw [found]
    exact congrArg Except.ok UInt64.ofNat_toNat

theorem seedOf_eq_error_iff {field : List Char} : seedOf field = .error fault ↔
    ∃ cause, word field = .error cause ∧ fault = .badSeed (String.ofList field) cause := by
  unfold seedOf
  split
  · next n found => exact iff_of_false nofun fun ⟨_, unread, _⟩ => nomatch found.symm.trans unread
  · next cause unread =>
    constructor
    · rintro ⟨⟩
      exact ⟨cause, unread, rfl⟩
    · rintro ⟨cause', unread', rfl⟩
      cases unread.symm.trans unread'
      rfl

theorem getD_eq_iff {α : Type} {o : Option α} {spells : α → Prop} {standard value : α}
    (reads : ∀ v, o = some v ↔ spells v) : o.getD standard = value ↔ Settles spells standard value := by
  unfold Settles
  simp only [← reads]
  cases o with
  | none => simp [eq_comm]
  | some v => simp

theorem getD_word_iff {field : List Char} {standard n : Nat} :
    (word field).toOption.getD standard = n ↔ Settles (SpellsWord field) standard n :=
  getD_eq_iff fun _ => toOption_eq_some_iff.trans word_eq_ok_iff

theorem getD_finite?_iff {field : List Char} {standard v : Float} :
    (finite? field).getD standard = v ↔ Settles (SpellsFinite field) standard v :=
  getD_eq_iff fun _ => finite?_eq_some_iff

theorem decode_empty (empty : body text = []) : decode text = .error .empty := by
  unfold decode
  exact if_pos empty

theorem decode_seed (nonempty : body text ≠ []) (alone : ',' ∉ body text) :
    decode text = ofSeed <$> seedOf (body text) := by
  unfold decode
  exact (if_neg nonempty).trans (if_pos alone)

theorem decode_fields {seed count flow scale decay : List Char} {rest : List (List Char)}
    (cut : Fields (body text) (seed :: count :: flow :: scale :: decay :: rest)) :
    decode text = do
      let s ← ofSeed <$> seedOf seed
      return { s with
        count := (word count).toOption.getD s.count
        flow := (finite? flow).getD s.flow
        scale := (finite? scale).getD s.scale
        decay := (finite? decay).getD s.decay } := by
  have comma := comma_of_fields cut (by simp)
  unfold decode
  dsimp only
  rw [if_neg (List.ne_nil_of_mem comma), if_neg (not_not.mpr comma), fields_iff.mp cut]

theorem decode_few (comma : ',' ∈ body text) (cut : Fields (body text) fields) (few : fields.length < 5) :
    decode text = .error (.tooFewFields fields.length) := by
  unfold decode
  dsimp only
  rw [if_neg (List.ne_nil_of_mem comma), if_neg (not_not.mpr comma), fields_iff.mp cut]
  split
  · exact absurd few (by simp)
  · rfl

theorem exists_fields (b : List Char) : ∃ fields, Fields b fields ∧ (fields.length < 5 ∨
    ∃ seed count flow scale decay rest, fields = seed :: count :: flow :: scale :: decay :: rest) := by
  refine ⟨_, fields_iff.mpr rfl, ?_⟩
  match (pieces ',' b).map trim with
  | [] | [_] | [_, _] | [_, _, _] | [_, _, _, _] => exact .inl (by simp)
  | seed :: count :: flow :: scale :: decay :: rest => exact .inr ⟨seed, count, flow, scale, decay, rest, rfl⟩

theorem fields_unique {fields' : List (List Char)} (cut : Fields b fields) (cut' : Fields b fields') : fields = fields' :=
  (fields_iff.mp cut).symm.trans (fields_iff.mp cut')

theorem decode_eq_ok_iff : decode text = .ok s ↔ Spells (body text) s := by
  constructor
  · intro read
    by_cases empty : body text = []
    · rw [decode_empty empty] at read
      cases read
    by_cases comma : ',' ∈ body text
    · obtain ⟨fields, cut, few | ⟨seed, count, flow, scale, decay, rest, rfl⟩⟩ := exists_fields (body text)
      · rw [decode_few comma cut few] at read
        cases read
      · rw [decode_fields cut] at read
        obtain ⟨standard, parsed, filled⟩ := exists_of_bind_eq_ok read
        obtain ⟨first, found, rfl⟩ := exists_of_map_eq_ok parsed
        cases filled
        exact .fields cut (seedOf_eq_ok_iff.mp found) (getD_word_iff.mp rfl) (getD_finite?_iff.mp rfl)
          (getD_finite?_iff.mp rfl) (getD_finite?_iff.mp rfl)
    · rw [decode_seed empty comma] at read
      obtain ⟨seed, found, rfl⟩ := exists_of_map_eq_ok read
      exact .seed comma (seedOf_eq_ok_iff.mp found)
  · intro spells
    generalize same : body text = b at spells
    cases spells with
    | seed alone read =>
        subst same
        rw [decode_seed read.1.ne_nil alone, seedOf_eq_ok_iff.mpr read]
        rfl
    | fields cut read count flow scale decay =>
        subst same
        rw [decode_fields cut, seedOf_eq_ok_iff.mpr read]
        change Except.ok (Share.mk _ _ _ _ _) = _
        rw [getD_word_iff.mpr count, getD_finite?_iff.mpr flow, getD_finite?_iff.mpr scale, getD_finite?_iff.mpr decay]
        rfl

theorem map_eq_error_iff {ε α β : Type} {f : α → β} {x : Except ε α} {e : ε} : f <$> x = .error e ↔ x = .error e := by
  cases x with
  | error e' => exact Iff.intro (fun same => congrArg _ (Except.error.inj same)) fun same => congrArg _ (Except.error.inj same)
  | ok a => exact iff_of_false nofun nofun

theorem decode_eq_error_iff : decode text = .error fault ↔ Refused (body text) fault := by
  constructor
  · intro refused
    by_cases empty : body text = []
    · rw [decode_empty empty] at refused
      cases refused
      rw [empty]
      exact .empty
    by_cases comma : ',' ∈ body text
    · obtain ⟨fields, cut, few | ⟨seed, count, flow, scale, decay, rest, rfl⟩⟩ := exists_fields (body text)
      · rw [decode_few comma cut few] at refused
        cases refused
        exact .few comma cut few
      · rw [decode_fields cut] at refused
        cases found : seedOf seed with
        | ok first =>
            rw [found] at refused
            cases refused
        | error fault' =>
            rw [found] at refused
            cases refused
            obtain ⟨cause, unread, rfl⟩ := seedOf_eq_error_iff.mp found
            exact .field cut (by simp) unread
    · rw [decode_seed empty comma, map_eq_error_iff] at refused
      obtain ⟨cause, unread, rfl⟩ := seedOf_eq_error_iff.mp refused
      exact .seed empty comma unread
  · intro refused
    generalize same : body text = b at refused
    cases refused with
    | empty => exact decode_empty same
    | seed nonempty alone unread =>
        subst same
        rw [decode_seed nonempty alone, map_eq_error_iff]
        exact seedOf_eq_error_iff.mpr ⟨_, unread, rfl⟩
    | few comma cut few =>
        subst same
        exact decode_few comma cut few
    | field cut many unread =>
        subst same
        obtain ⟨fields, cut', few | ⟨seed, count, flow, scale, decay, rest, rfl⟩⟩ := exists_fields (body text)
        · cases fields_unique cut cut'
          exact absurd few (by simpa using many)
        · cases fields_unique cut cut'
          rw [decode_fields cut, seedOf_eq_error_iff.mpr ⟨_, unread, rfl⟩]
          rfl

theorem Spells.acceptable (spells : Spells b s) : Acceptable b := by
  cases spells with
  | seed alone read => exact ⟨read.1.ne_nil, .inl ⟨alone, _, read⟩⟩
  | fields cut read =>
      have comma := comma_of_fields cut (by simp)
      exact ⟨List.ne_nil_of_mem comma, .inr ⟨_, _, cut, by simp, _, read⟩⟩

theorem Acceptable.exists_spells (acceptable : Acceptable b) : ∃ s, Spells b s := by
  have word_toNat {field : List Char} {n : Nat} (read : SpellsWord field n) : SpellsWord field n.toUInt64.toNat := by
    rwa [UInt64.toNat_ofNat_of_lt' read.2]
  obtain ⟨-, ⟨alone, n, read⟩ | ⟨seed, rest, cut, many, n, read⟩⟩ := acceptable
  · exact ⟨_, .seed alone (word_toNat read)⟩
  · obtain ⟨fields, cut', few | ⟨seed, count, flow, scale, decay, rest, rfl⟩⟩ := exists_fields b
    · cases fields_unique cut cut'
      exact absurd few (by simpa using many)
    · cases fields_unique cut cut'
      let standard := ofSeed n.toUInt64
      refine ⟨⟨standard.seed, (word count).toOption.getD standard.count, (finite? flow).getD standard.flow,
        (finite? scale).getD standard.scale, (finite? decay).getD standard.decay⟩, ?_⟩
      exact .fields cut (word_toNat read) (getD_word_iff.mp rfl) (getD_finite?_iff.mp rfl) (getD_finite?_iff.mp rfl)
        (getD_finite?_iff.mp rfl)

/-- Exactly the acceptable texts are codes, and each of them is read as the share that it spells. Every other text is
refused as no share code. -/
theorem reads_exactly_codes (text : String) :
    (∀ b, body text = b ↔ Stripped text.toList b) ∧
    ((∃ s, decode text = .ok s) ↔ Acceptable (body text)) ∧
    (∀ s, decode text = .ok s ↔ Spells (body text) s) ∧
    ∀ fault, (decode text).mapError Fault.share = .error fault ↔
      ∃ cause, Refused (body text) cause ∧ fault = .share cause := by
  refine ⟨fun b => body_eq_iff, ?_, fun s => decode_eq_ok_iff, fun fault => ?_⟩
  · simp only [decode_eq_ok_iff]
    exact ⟨fun ⟨s, spells⟩ => spells.acceptable, Acceptable.exists_spells⟩
  · simp only [← decode_eq_error_iff]
    cases decode text with
    | ok s => exact iff_of_false nofun fun ⟨_, refused, _⟩ => nomatch refused
    | error cause =>
        constructor
        · rintro ⟨⟩
          exact ⟨cause, rfl, rfl⟩
        · rintro ⟨cause', ⟨⟩, rfl⟩
          rfl

-- a blank between the number sign and the seed stays
example : decode "# 7" = .error (.badSeed " 7" .badDigit) := rfl

end DriftField.Share
