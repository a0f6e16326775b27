import Mathlib
import DriftField.Colour
import DriftField.Proofs.Expr.Grammar
import DriftField.Proofs.Scalar.Zero
import DriftField.Proofs.Text.Number
/-!
Colours in hexadecimal notation. The reader takes three pairs of characters, each of which is two digits or a plus sign
and a digit. The printer gives the digits back in lower case, with a zero for a plus sign.
-/

namespace DriftField

namespace Text

def hexDigits : List Char := "0123456789abcdefABCDEF".toList

theorem ne_plus_of_mem_hexDigits {c : Char} (digit : c ∈ hexDigits) : c ≠ '+' := by
  have plus : '+' ∉ hexDigits := by decide +kernel
  exact ne_of_mem_of_not_mem digit plus

theorem hexValue?_eq_none {c : Char} (other : c ∉ hexDigits) : hexValue? c = none := by
  have all : ∀ n < 128, Char.ofNat n ∉ hexDigits → hexValue? (Char.ofNat n) = none := by decide +kernel
  by_cases ascii : c.toNat < 128
  · exact forall_ascii (p := fun c => c ∉ hexDigits → hexValue? c = none) all ascii other
  · have above {d : Char} (small : d.toNat < 128) : ¬ c ≤ d := by
      rw [Char.le_def, UInt32.le_iff_toNat_le]
      exact fun below => ascii (below.trans_lt small)
    unfold hexValue?
    simp [above]

theorem exists_hexValue? {c : Char} (digit : c ∈ hexDigits) :
    ∃ n < 16, hexValue? c = some n ∧ hexDigit n = c.toLower := by
  have all : hexDigits.all (fun c =>
      let n := (hexValue? c).getD 0
      n < 16 ∧ hexValue? c = some n ∧ hexDigit n = c.toLower) = true := by decide +kernel
  exact ⟨_, of_decide_eq_true (List.all_eq_true.mp all c digit)⟩

theorem hexDigit_add (n m : Nat) : hexDigit (16 * n + m) = hexDigit m := by
  unfold hexDigit
  rw [Nat.mul_add_mod]

end Text

namespace Colour

open Scalar Text

variable {a b : Char} {n : Nat} {v w : Float} {colour : Colour} {digits : List Char}

/-! Pairs of characters. -/

/-- Two digits, or a plus sign and a digit. -/
def Pair (a b : Char) : Prop := (a = '+' ∨ a ∈ hexDigits) ∧ b ∈ hexDigits

def lowered (c : Char) : Char := if c = '+' then '0' else c.toLower

theorem lowered_of_mem (digit : a ∈ hexDigits) : lowered a = a.toLower :=
  if_neg (ne_plus_of_mem_hexDigits digit)

/-- A pair has a value, and the value is printed as the pair in lower case. -/
theorem Pair.exists_byte (pair : Pair a b) :
    ∃ n < 256, byteOfDigits? a b = some n ∧ digitsOfByte n.toUInt8 = [lowered a, lowered b] := by
  obtain ⟨high, low⟩ := pair
  obtain ⟨m, small, value, printed⟩ := exists_hexValue? low
  have whole {n : Nat} (bound : n < 256) : n.toUInt8.toNat = n := UInt8.toNat_ofNat_of_lt' bound
  rw [lowered_of_mem low, ← printed]
  unfold byteOfDigits? digitsOfByte
  rcases high with rfl | high
  · refine ⟨m, by omega, ?_, ?_⟩
    · rw [if_pos rfl, value]
    · rw [whole (by omega), Nat.div_eq_of_lt small]
      rfl
  · obtain ⟨n, small', value', printed'⟩ := exists_hexValue? high
    refine ⟨16 * n + m, by omega, ?_, ?_⟩
    · rw [if_neg (ne_plus_of_mem_hexDigits high), value, value']
      rfl
    · have quotient : (16 * n + m) / 16 = n := by omega
      rw [whole (by omega), quotient, hexDigit_add, lowered_of_mem high, ← printed']

theorem pair_of_byteOfDigits? (read : byteOfDigits? a b = some n) : Pair a b := by
  unfold byteOfDigits? at read
  split at read
  · next plus =>
    refine ⟨.inl plus, ?_⟩
    by_contra other
    rw [hexValue?_eq_none other] at read
    cases read
  · refine ⟨.inr ?_, ?_⟩
    · by_contra other
      rw [hexValue?_eq_none other] at read
      cases read
    · by_contra other
      rw [hexValue?_eq_none other] at read
      cases value : hexValue? a with
      | none =>
          rw [value] at read
          cases read
      | some m =>
          rw [value] at read
          cases read

/-! Bytes. -/

theorem byte_ofByte (bound : n < 256) : byte (ofByte n) = n.toUInt8 := by
  have all : ∀ n < 256, byte (ofByte n) = n.toUInt8 := by decide +kernel
  exact all n bound

theorem byte_of_zero (zero : IsZero v) : byte v = 0 := by
  obtain ⟨s, value⟩ := zero
  cases s with
  | positive =>
      have same : v.toModel.unpack = (0.0 : Float).toModel.unpack := value
      rw [eq_of_unpack_eq same]
      decide
  | negative =>
      have same : v.toModel.unpack = (-0.0 : Float).toModel.unpack := value
      rw [eq_of_unpack_eq same]
      decide

/-- The same number is printed alike, also when it is a zero of either sign. -/
theorem byte_congr (same : Same v w) : byte v = byte w := by
  have settle {v w : Float} (same : Same v w) : v = w ∨ IsZero w := by
    rcases same with equal | equal
    · exact .inl equal
    · exact (eq_or_zero_of_compare_eq (eq_of_beq equal)).imp_left eq_of_unpack_eq
  rcases settle same with rfl | zero
  · rfl
  · rcases settle same.symm with rfl | zero'
    · rfl
    · rw [byte_of_zero zero, byte_of_zero zero']

theorem hexValue?_hexDigit {n : Nat} (small : n < 16) : hexValue? (hexDigit n) = some n := by
  have all : ∀ n < 16, hexValue? (hexDigit n) = some n := by decide +kernel
  exact all n small

theorem digitsOfByte_injective : Function.Injective digitsOfByte := by
  intro x y same
  have value {m n : Nat} (same : hexDigit m = hexDigit n) : m % 16 = n % 16 := by
    have digit (k : Nat) : hexDigit k = hexDigit (k % 16) := by
      unfold hexDigit
      rw [Nat.mod_mod]
    rw [digit m, digit n] at same
    have read := hexValue?_hexDigit (Nat.mod_lt m (by decide : 0 < 16))
    rw [same, hexValue?_hexDigit (Nat.mod_lt n (by decide : 0 < 16))] at read
    exact (Option.some.inj read).symm
  obtain ⟨high, low, -⟩ := List.cons.inj same |>.imp_right List.cons.inj
  have bound := x.toNat_lt
  have bound' := y.toNat_lt
  have quotients := value high
  have remainders := value low
  exact UInt8.toNat_inj.mp (by omega)

/-! Colours. -/

/-- The text is so many characters, perhaps after a number sign. -/
def Marked (text : String) (digits : List Char) : Prop := text.toList = digits ∨ text.toList = '#' :: digits

/-- Three pairs of characters. -/
inductive Pairs : List Char → Prop
  | intro {a b c d e f : Char} (red : Pair a b) (green : Pair c d) (blue : Pair e f) : Pairs [a, b, c, d, e, f]

def SixDigits (digits : List Char) : Prop := digits.length = 6 ∧ ∀ c ∈ digits, c ∈ hexDigits

/-- The same colour. The two zeros are not told apart. -/
def Alike (c d : Colour) : Prop := Same c.red d.red ∧ Same c.green d.green ∧ Same c.blue d.blue

theorem toNat_lt_of_mem (digit : a ∈ hexDigits) : a.toNat < 128 := by
  have all : hexDigits.all (fun c => c.toNat < 128) = true := by decide +kernel
  exact of_decide_eq_true (List.all_eq_true.mp all a digit)

theorem Pair.ascii (pair : Pair a b) : a.toNat < 128 ∧ b.toNat < 128 := by
  refine ⟨?_, toNat_lt_of_mem pair.2⟩
  rcases pair.1 with rfl | digit
  · decide
  · exact toNat_lt_of_mem digit

theorem Pair.not_mark (pair : Pair a b) : a ≠ '#' := by
  rintro rfl
  obtain ⟨plus | digit, -⟩ := pair
  · revert plus
    decide
  · revert digit
    decide +kernel

theorem component_eq_ok_iff {name : String} : component name a b = .ok v ↔ ∃ n, byteOfDigits? a b = some n ∧ v = ofByte n := by
  unfold component
  split
  · next n value => simp [value, eq_comm]
  · next none => simp [none]

theorem ofHex_of_marked {text : String} {c d e f : Char} (marked : Marked text [a, b, c, d, e, f]) (first : a ≠ '#')
    (ascii : ([a, b, c, d, e, f].all fun c => c.toNat < 128) = true) : ofHex text = do
      let red ← component "red" a b
      let green ← component "green" c d
      let blue ← component "blue" e f
      return ⟨red, green, blue⟩ := by
  unfold ofHex
  rcases marked with bare | marked
  · rw [bare]
    split
    · next same => exact absurd (List.cons.inj same).1 first
    · exact if_pos ascii
  · rw [marked]
    exact if_pos ascii

/-- A text with three pairs is read as the colour of their values, and the digits of that are the pairs in lower case. -/
theorem Pairs.exists_ofHex {text : String} (pairs : Pairs digits) (marked : Marked text digits) :
    ∃ red green blue, (red < 256 ∧ green < 256 ∧ blue < 256) ∧
      digits.map lowered = digitsOfByte red.toUInt8 ++ digitsOfByte green.toUInt8 ++ digitsOfByte blue.toUInt8 ∧
      ofHex text = .ok ⟨ofByte red, ofByte green, ofByte blue⟩ := by
  cases pairs with
  | @intro a b c d e f first second third =>
  obtain ⟨red, bound, value, printed⟩ := first.exists_byte
  obtain ⟨green, bound', value', printed'⟩ := second.exists_byte
  obtain ⟨blue, bound'', value'', printed''⟩ := third.exists_byte
  refine ⟨red, green, blue, ⟨bound, bound', bound''⟩, ?_, ?_⟩
  · rw [printed, printed', printed'']
    rfl
  · have ascii : ([a, b, c, d, e, f].all fun c => c.toNat < 128) = true := by
      simp [first.ascii, second.ascii, third.ascii]
    rw [ofHex_of_marked marked first.not_mark ascii, component_eq_ok_iff.mpr ⟨red, value, rfl⟩,
      component_eq_ok_iff.mpr ⟨green, value', rfl⟩, component_eq_ok_iff.mpr ⟨blue, value'', rfl⟩]
    rfl

theorem exists_pairs_of_ofHex {text : String} (read : ofHex text = .ok colour) :
    ∃ digits, Marked text digits ∧ Pairs digits := by
  unfold ofHex at read
  unfold Marked
  generalize text.toList = cs at read
  -- with a number sign and without one
  split at read
  all_goals
    dsimp only at read
    split at read
    · split at read
      · obtain ⟨red, found, read⟩ := exists_of_bind_eq_ok read
        obtain ⟨green, found', read⟩ := exists_of_bind_eq_ok read
        obtain ⟨blue, found'', -⟩ := exists_of_bind_eq_ok read
        obtain ⟨n, value, -⟩ := component_eq_ok_iff.mp found
        obtain ⟨n', value', -⟩ := component_eq_ok_iff.mp found'
        obtain ⟨n'', value'', -⟩ := component_eq_ok_iff.mp found''
        have pairs := Pairs.intro (pair_of_byteOfDigits? value) (pair_of_byteOfDigits? value')
          (pair_of_byteOfDigits? value'')
        exact ⟨_, by simp, pairs⟩
      · cases read
    · cases read

theorem bytes_of_bounds {red green blue : Nat} (bounds : red < 256 ∧ green < 256 ∧ blue < 256) :
    bytes ⟨ofByte red, ofByte green, ofByte blue⟩ = [red.toUInt8, green.toUInt8, blue.toUInt8] := by
  obtain ⟨bound, bound', bound''⟩ := bounds
  unfold bytes
  rw [byte_ofByte bound, byte_ofByte bound', byte_ofByte bound'']

theorem Pairs.digits_eq {text : String} (pairs : Pairs digits) (marked : Marked text digits) (read : ofHex text = .ok colour) :
    colour.digits = digits.map lowered := by
  obtain ⟨red, green, blue, bounds, printed, found⟩ := pairs.exists_ofHex marked
  cases found.symm.trans read
  unfold Colour.digits
  rw [bytes_of_bounds bounds, printed]
  simp

theorem Alike.refl (c : Colour) : Alike c c := ⟨.refl _, .refl _, .refl _⟩

theorem Alike.digits_eq {c d : Colour} (alike : Alike c d) : c.digits = d.digits := by
  unfold Colour.digits bytes
  rw [byte_congr alike.1, byte_congr alike.2.1, byte_congr alike.2.2]

theorem length_digitsOfByte (b : UInt8) : (digitsOfByte b).length = 2 := rfl

theorem bytes_eq_of_digits_eq {c d : Colour} (same : c.digits = d.digits) : c.bytes = d.bytes := by
  have long (b b' : UInt8) : (digitsOfByte b).length = (digitsOfByte b').length := by
    rw [length_digitsOfByte, length_digitsOfByte]
  unfold Colour.digits bytes at same
  simp only [List.flatMap_cons, List.flatMap_nil] at same
  obtain ⟨red, same⟩ := List.append_inj same (long _ _)
  obtain ⟨green, same⟩ := List.append_inj same (long _ _)
  obtain ⟨blue, -⟩ := List.append_inj same (long _ _)
  unfold bytes
  rw [digitsOfByte_injective red, digitsOfByte_injective green, digitsOfByte_injective blue]

theorem eq_of_digits_eq {text text' : String} {colour' : Colour} (read : ofHex text = .ok colour)
    (read' : ofHex text' = .ok colour') (same : colour.digits = colour'.digits) : colour = colour' := by
  obtain ⟨digits, marked, pairs⟩ := exists_pairs_of_ofHex read
  obtain ⟨digits', marked', pairs'⟩ := exists_pairs_of_ofHex read'
  obtain ⟨red, green, blue, bounds, -, found⟩ := pairs.exists_ofHex marked
  obtain ⟨red', green', blue', bounds', -, found'⟩ := pairs'.exists_ofHex marked'
  cases found.symm.trans read
  cases found'.symm.trans read'
  have bytes := bytes_eq_of_digits_eq same
  rw [bytes_of_bounds bounds, bytes_of_bounds bounds'] at bytes
  simp only [List.cons.injEq, and_true] at bytes
  have whole {m n : Nat} (bound : m < 256) (bound' : n < 256) (same : m.toUInt8 = n.toUInt8) : m = n := by
    rw [← UInt8.toNat_ofNat_of_lt' bound, ← UInt8.toNat_ofNat_of_lt' bound']
    exact congrArg UInt8.toNat same
  rw [whole bounds.1 bounds'.1 bytes.1, whole bounds.2.1 bounds'.2.1 bytes.2.1, whole bounds.2.2 bounds'.2.2 bytes.2.2]

theorem Marked.plus_mem_iff {text : String} (marked : Marked text digits) : '+' ∈ text.toList ↔ '+' ∈ digits := by
  rcases marked with bare | marked
  · rw [bare]
  · rw [marked, List.mem_cons]
    exact or_iff_right (by decide)

theorem sixDigits_iff : SixDigits digits ↔ Pairs digits ∧ '+' ∉ digits := by
  constructor
  · intro ⟨long, all⟩
    refine ⟨?_, fun member => ne_plus_of_mem_hexDigits (all '+' member) rfl⟩
    match digits, long with
    | [a, b, c, d, e, f], _ =>
        simp only [List.forall_mem_cons] at all
        obtain ⟨a, b, c, d, e, f, -⟩ := all
        exact .intro ⟨.inr a, b⟩ ⟨.inr c, d⟩ ⟨.inr e, f⟩
  · rintro ⟨⟨red, green, blue⟩, plain⟩
    simp only [List.mem_cons, List.not_mem_nil, or_false, not_or] at plain
    have digit {a b : Char} (pair : Pair a b) (plain : '+' ≠ a) : a ∈ hexDigits := pair.1.resolve_left (Ne.symm plain)
    refine ⟨rfl, ?_⟩
    simp only [List.forall_mem_cons]
    exact ⟨digit red plain.1, red.2, digit green plain.2.2.1, green.2, digit blue plain.2.2.2.2.1, blue.2,
      List.forall_mem_nil _⟩

/-- A text is read as a colour just when it is three pairs, perhaps after a number sign. These are the texts of six
digits if there is no plus sign in them. The colour is printed as the pairs in lower case, and two texts give the same
colour just when their pairs are the same in lower case. -/
theorem reads_hex_pairs (text : String) :
    ((∃ colour, ofHex text = .ok colour) ↔ ∃ digits, Marked text digits ∧ Pairs digits) ∧
    ((∃ digits, Marked text digits ∧ SixDigits digits) ↔ (∃ colour, ofHex text = .ok colour) ∧ '+' ∉ text.toList) ∧
    (∀ digits, SixDigits digits → digits.map lowered = digits.map Char.toLower) ∧
    ∀ digits colour, Marked text digits → Pairs digits → ofHex text = .ok colour →
      colour.toHex = String.ofList ('#' :: digits.map lowered) ∧
      ∀ text' digits' colour', Marked text' digits' → Pairs digits' → ofHex text' = .ok colour' →
        (colour = colour' ↔ digits.map lowered = digits'.map lowered) ∧
        (Alike colour colour' ↔ digits.map lowered = digits'.map lowered) := by
  have accepted : (∃ colour, ofHex text = .ok colour) ↔ ∃ digits, Marked text digits ∧ Pairs digits := by
    constructor
    · exact fun ⟨colour, read⟩ => exists_pairs_of_ofHex read
    · intro ⟨digits, marked, pairs⟩
      obtain ⟨red, green, blue, -, -, read⟩ := pairs.exists_ofHex marked
      exact ⟨_, read⟩
  refine ⟨accepted, ?_, fun digits six => List.map_congr_left fun c member => lowered_of_mem (six.2 c member),
    fun digits colour marked pairs read => ⟨?_, ?_⟩⟩
  · rw [accepted]
    constructor
    · intro ⟨digits, marked, six⟩
      obtain ⟨pairs, plain⟩ := sixDigits_iff.mp six
      exact ⟨⟨digits, marked, pairs⟩, mt marked.plus_mem_iff.mp plain⟩
    · intro ⟨⟨digits, marked, pairs⟩, plain⟩
      exact ⟨digits, marked, sixDigits_iff.mpr ⟨pairs, mt marked.plus_mem_iff.mpr plain⟩⟩
  · unfold toHex
    rw [pairs.digits_eq marked read]
  · intro text' digits' colour' marked' pairs' read'
    rw [← pairs.digits_eq marked read, ← pairs'.digits_eq marked' read']
    have same := eq_of_digits_eq read read'
    refine ⟨⟨fun same => same ▸ rfl, same⟩, ⟨Alike.digits_eq, fun digits => ?_⟩⟩
    rw [same digits]
    exact .refl _

def mixedPairs : List Char := ['F', 'f', '+', '8', '0', '0']

theorem pairs_mixedPairs : Pairs mixedPairs := by
  have member {c : Char} (found : hexDigits.contains c = true) : c ∈ hexDigits := List.contains_iff_mem.mp found
  refine .intro ⟨.inr (member ?_), member ?_⟩ ⟨.inl rfl, member ?_⟩ ⟨.inr (member ?_), member ?_⟩ <;> decide +kernel

theorem mixed_pairs_read :
    Marked "#Ff+800" mixedPairs ∧ Pairs mixedPairs ∧
      ∃ colour, ofHex "#Ff+800" = .ok colour ∧ colour.toHex = "#ff0800" := by
  have marked : Marked "#Ff+800" mixedPairs := .inr (by decide)
  obtain ⟨accepted, -, -, printed⟩ := reads_hex_pairs "#Ff+800"
  obtain ⟨colour, read⟩ := accepted.mpr ⟨_, marked, pairs_mixedPairs⟩
  refine ⟨marked, pairs_mixedPairs, colour, read, ?_⟩
  rw [(printed _ colour marked pairs_mixedPairs read).1]
  decide +kernel

/-- A plus sign stands in for a digit. -/
theorem plus_sign_read :
    (∃ colour, ofHex "+f0000" = .ok colour ∧ colour.toHex = "#0f0000") ∧
      ¬ ∃ digits, Marked "+f0000" digits ∧ SixDigits digits := by
  constructor
  · exact ⟨_, rfl, by decide +kernel⟩
  · rintro ⟨digits, marked, six⟩
    have plain := (sixDigits_iff.mp six).2
    exact plain (marked.plus_mem_iff.mp (by decide))

end Colour

end DriftField
