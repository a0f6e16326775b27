import Mathlib
import DriftField.Proofs.Draw
import DriftField.Proofs.Scalar.Clamp
import DriftField.Proofs.Scalar.Plus
import DriftField.Scalar.Remainder
/-!
The remainder of a division is exact: it has no more significant bits than its operands. Bringing it into the range
from zero to the divisor rounds nothing either where the dividend is no less than the divisor. Both are then whole
multiples of the last place of the divisor, and so is what comes out, which is less than the divisor.
-/

namespace DriftField.Scalar

open Float.Model Float.Model.UnpackedFloat

variable {a b c v : Float}

/-! Numbers and their parts. -/

def signOf (v : Float) : Sign := if isNegative v then .negative else .positive

theorem Decoding.parts {s : Sign} {e : BitVec 11} {m : BitVec 52} (decoding : Decoding v s e m) :
    signOf v = s ∧ exponentField v = e.toNat ∧ v.toBits.toNat % leadingBit = m.toNat := by
  have bits : v.toBits.toNat = s.toBitVec.toNat * 2 ^ 63 + e.toNat * 2 ^ 52 + m.toNat :=
    (congrArg BitVec.toNat decoding.bits).trans (toNat_assembled s e m)
  have bound := e.isLt
  have bound' := m.isLt
  refine ⟨?_, ?_, ?_⟩
  · unfold signOf
    rw [isNegative_eq decoding]
    cases s <;> rfl
  · unfold exponentField
    rw [UInt64.toNat_shiftRight]
    change v.toBits.toNat >>> 52 % 2048 = _
    rw [Nat.shiftRight_eq_div_pow]
    omega
  · rw [leadingBit_eq]
    omega

theorem weight_eq_parts (finite : isFinite v = true) :
    weight v.toModel.unpack = (signOf v).apply (significand v * 2 ^ scale v : Nat) ∧ scale v < 2046 := by
  obtain ⟨s, e, m, decoding⟩ := exists_decoding v
  obtain ⟨sign, exponent, fraction⟩ := decoding.parts
  have top : e ≠ -1#11 := of_decide_eq_true ((isFinite_eq decoding).symm.trans finite)
  have top' : e.toNat ≠ 2047 := fun same => top (BitVec.eq_of_toNat_eq same)
  have bound := e.isLt
  unfold significand scale
  rw [sign, exponent, fraction, decoding.value, decoded, if_neg top, leadingBit_eq]
  refine ⟨?_, by omega⟩
  rcases eq_or_ne e 0#11 with rfl | scaled
  · rw [if_pos rfl]
    split
    · next none =>
      rw [none]
      cases s <;> rfl
    · change s.apply ((m.toNat : Int) * 2 ^ 0) = s.apply ((m.toNat + 0) * 2 ^ 0 : Nat)
      push_cast
      rfl
  · have scaled' : e.toNat ≠ 0 := fun same => scaled (BitVec.eq_of_toNat_eq same)
    have places : ((e.toNat : Int) - 1075 + 1074).toNat = e.toNat - 1 := by omega
    rw [if_neg scaled, if_neg scaled', ← places, Nat.add_comm m.toNat]
    unfold weight
    push_cast
    rfl

theorem magnitude_eq_parts (finite : isFinite v = true) : magnitude v = significand v * 2 ^ scale v := by
  unfold magnitude
  rw [(weight_eq_parts finite).1]
  cases signOf v with
  | positive => rfl
  | negative => exact Int.natAbs_neg _

theorem weight_eq_magnitude (finite : isFinite v = true) :
    weight v.toModel.unpack = (signOf v).apply (magnitude v) := by
  rw [magnitude_eq_parts finite]
  exact (weight_eq_parts finite).1

theorem rank_ofBits {w : UInt64} (finite : w.toNat < 2047 * 2 ^ 52) :
    (Float.ofBits w).isNaN = false ∧ rank (Float.ofBits w) = w.toNat := by
  obtain ⟨s, e, m, bits⟩ := exists_assembled w.toBitVec
  have size : w.toNat = s.toBitVec.toNat * 2 ^ 63 + e.toNat * 2 ^ 52 + m.toNat :=
    (congrArg BitVec.toNat bits).trans (toNat_assembled s e m)
  have top : e ≠ -1#11 := by
    rintro rfl
    change _ = _ + 2047 * 2 ^ 52 + _ at size
    omega
  cases s with
  | negative =>
      change _ = 1 * 2 ^ 63 + _ + _ at size
      omega
  | positive =>
      have decoding : Decoding (Float.ofBits w) .positive e m := by
        apply decoding_of_pack fun infinite => absurd infinite top
        rw [← unpack_assembled, ← bits]
        rfl
      have plus : Plus (Float.ofBits w).toModel.unpack := by
        rw [decoding.value]
        exact plus_decoded fun infinite => absurd infinite top
      refine ⟨plus.isNaN, ?_⟩
      rw [← plus.toNat_toBits]
      exact congrArg (fun b : BitVec 64 => (b.toNat : Int)) (decoding.bits.trans bits.symm)

theorem unsigned_ofParts {n e : Nat} (short : n < 2 ^ 53) (bounded : e < 2046) :
    Unsigned (ofParts n e) ∧ magnitude (ofParts n e) = n * 2 ^ e := by
  unfold ofParts bitsOfParts
  rcases Nat.eq_zero_or_pos n with rfl | positive
  · simp only [if_true, Nat.sub_self, Nat.zero_shiftLeft, Nat.zero_mul]
    exact ⟨unsigned_zero, magnitude_zero⟩
  · have log : n.log2 < 53 := (Nat.log2_lt positive.ne').mpr short
    obtain ⟨shift, shifted⟩ : ∃ shift, min (52 - n.log2) e = shift := ⟨_, rfl⟩
    have long := log2_mul_pow positive.ne' shift
    have some : 0 < n * 2 ^ shift := by positivity
    have short' : n * 2 ^ shift < 2 ^ 53 := (Nat.log2_lt some.ne').mp (by omega)
    have canonical : Canonical (n * 2 ^ shift) ((e - shift : Nat) - 1074) := by
      refine ⟨short', by omega, by omega, ?_⟩
      -- Either the exponent is used up, or the leading bit is in its place.
      rcases eq_or_ne shift e with all | part
      · exact .inl (by omega)
      · exact .inr ((Nat.le_log2 some.ne').mp (by omega))
    have word : (((e - shift) <<< 52) + (n <<< shift)).toUInt64.toNat = (e - shift) * 2 ^ 52 + n * 2 ^ shift := by
      rw [Nat.shiftLeft_eq, Nat.shiftLeft_eq]
      exact UInt64.toNat_ofNat_of_lt' (by change _ < 2 ^ 64; omega)
    simp only [if_neg positive.ne', shifted]
    obtain ⟨number, rank_eq⟩ := rank_ofBits (w := (((e - shift) <<< 52) + (n <<< shift)).toUInt64) (by omega)
    obtain ⟨unsigned, size⟩ := unsigned_of_rank number canonical some (by rw [rank_eq, word]; push_cast; ring)
    refine ⟨unsigned, ?_⟩
    have places : (((e - shift : Nat) : Int) - 1074 + 1074).toNat = e - shift := by omega
    rw [size, places, Nat.mul_assoc, ← pow_add]
    congr 2
    omega

/-! The remainder. -/

theorem apply_tmod (s t : Sign) (m n : Nat) : (s.apply m).tmod (t.apply n) = s.apply (m % n : Nat) := by
  have whole : (m : Int).tmod n = (m % n : Nat) := rfl
  cases s <;> cases t
  case positive.positive => exact whole
  case positive.negative => exact (Int.tmod_neg _ _).trans whole
  case negative.positive => exact (Int.neg_tmod _ _).trans (congrArg _ whole)
  case negative.negative => exact (Int.neg_tmod _ _).trans (congrArg _ ((Int.tmod_neg _ _).trans whole))

theorem remainderOfMagnitudes_exact (left : isFinite a = true) (right : isFinite b = true) (divisor : 0 < magnitude b) :
    Unsigned (remainderOfMagnitudes a b) ∧ magnitude (remainderOfMagnitudes a b) = magnitude a % magnitude b := by
  rw [magnitude_eq_parts right] at divisor
  have some : 0 < significand b := Nat.pos_of_mul_pos_right divisor
  obtain ⟨e, least⟩ : ∃ e, min (scale a) (scale b) = e := ⟨_, rfl⟩
  have bounded := (weight_eq_parts left).2
  unfold remainderOfMagnitudes
  simp only [least, Nat.shiftLeft_eq]
  have short : significand a * 2 ^ (scale a - e) % (significand b * 2 ^ (scale b - e)) < 2 ^ 53 := by
    rcases Nat.le_total (scale a) (scale b) with lower | higher
    · rw [show scale a - e = 0 by omega, pow_zero, Nat.mul_one]
      exact (Nat.mod_le _ _).trans_lt (significand_lt a)
    · rw [show scale b - e = 0 by omega, pow_zero, Nat.mul_one]
      exact (Nat.mod_lt _ some).trans (significand_lt b)
  obtain ⟨unsigned, size⟩ := unsigned_ofParts short (by omega : e < 2046)
  refine ⟨unsigned, ?_⟩
  have places : scale a - e + e = scale a := by omega
  have places' : scale b - e + e = scale b := by omega
  rw [size, ← Nat.mul_mod_mul_right, Nat.mul_assoc, Nat.mul_assoc, ← pow_add, ← pow_add, places, places',
    magnitude_eq_parts left, magnitude_eq_parts right]

theorem magnitude_abs (number : v.isNaN = false) : magnitude v.abs = magnitude v := by
  unfold magnitude
  rw [unpack_abs number]
  cases v.toModel.unpack with
  | notANumber => rfl
  | zero s => rfl
  | infinity s => cases s <;> first | rfl | exact (Int.natAbs_neg _).symm
  | finite s m e positive => cases s <;> first | rfl | exact (Int.natAbs_neg _).symm

theorem unsigned_abs (finite : isFinite v = true) : Unsigned v.abs :=
  unsigned (zero_le_abs (not_isNaN_of_isFinite finite)) ((isFinite_abs v).trans finite)

theorem withSignOf_exact (a : Float) (plain : Unsigned v) :
    isFinite (withSignOf a v) = true ∧ weight (withSignOf a v).toModel.unpack = (signOf a).apply (magnitude v) := by
  have size := magnitude_abs plain.isNaN
  have plain' := unsigned_abs plain.isFinite
  unfold withSignOf signOf
  cases isNegative a with
  | false =>
      refine ⟨plain'.isFinite, ?_⟩
      change weight v.abs.toModel.unpack = _
      rw [plain'.weight_eq, size]
      rfl
  | true =>
      refine ⟨isFinite_neg plain'.isFinite, ?_⟩
      change weight (-v.abs).toModel.unpack = _
      rw [unpack_neg plain'.isNaN, weight_neg, plain'.weight_eq, size]
      rfl

theorem beq_zero_eq_false (some : 0 < magnitude v) : (v == 0.0) = false := by
  by_contra zero
  rcases Same.eq_or_rank (.inr (Bool.not_eq_false _ ▸ zero)) with rfl | ⟨left, right, same⟩
  · exact absurd some (by rw [magnitude_zero]; decide)
  · have none : magnitude v = magnitude 0.0 :=
      congrArg Int.natAbs (weight_eq_of_place_eq (isNumber left) (isNumber right) same)
    rw [none, magnitude_zero] at some
    exact lt_irrefl 0 some

theorem remainder_exact (left : isFinite a = true) (right : isFinite b = true) (divisor : 0 < magnitude b) :
    isFinite (remainder a b) = true ∧
      weight (remainder a b).toModel.unpack = (weight a.toModel.unpack).tmod (weight b.toModel.unpack) := by
  have number := not_isNaN_of_isFinite left
  have number' := not_isNaN_of_isFinite right
  rw [weight_eq_magnitude left, weight_eq_magnitude right, apply_tmod]
  unfold remainder
  rw [number, number', left, beq_zero_eq_false divisor, if_neg (by decide)]
  split
  · next less =>
    rw [lt_iff_magnitude (unsigned_abs left) (unsigned_abs right), magnitude_abs number, magnitude_abs number'] at less
    rw [Nat.mod_eq_of_lt less]
    exact ⟨left, weight_eq_magnitude left⟩
  · obtain ⟨plain, size⟩ := remainderOfMagnitudes_exact left right divisor
    rw [← size]
    exact withSignOf_exact a plain

/-! The remainder from zero on. -/

theorem scale_le_of_magnitude_le (left : isFinite a = true) (right : isFinite b = true)
    (order : magnitude a ≤ magnitude b) : scale a ≤ scale b := by
  by_contra above
  rw [not_le] at above
  rw [magnitude_eq_parts left, magnitude_eq_parts right] at order
  refine absurd order (not_le_of_gt ?_)
  calc
    significand b * 2 ^ scale b < 2 ^ 53 * 2 ^ scale b :=
      Nat.mul_lt_mul_of_pos_right (significand_lt b) (by positivity)
    _ = 2 ^ 52 * 2 ^ (scale b + 1) := by rw [pow_succ 2 (scale b)]; ring
    _ ≤ 2 ^ 52 * 2 ^ scale a := Nat.mul_le_mul_left _ (Nat.pow_le_pow_right two_pos above)
    _ ≤ significand a * 2 ^ scale a := Nat.mul_le_mul_right _ (le_significand (Nat.zero_lt_of_lt above))

theorem pow_scale_dvd_weight (finite : isFinite v = true) {k : Nat} (below : k ≤ scale v) :
    (2 ^ k : Int) ∣ weight v.toModel.unpack := by
  have whole : (2 ^ k : Int) ∣ (significand v * 2 ^ scale v : Nat) := by
    push_cast
    exact Dvd.dvd.mul_left (pow_dvd_pow 2 below) _
  rw [(weight_eq_parts finite).1]
  cases signOf v with
  | positive => exact whole
  | negative => exact whole.neg_right

/-- What is less than a number, in whole units of its last place, is a number. -/
theorem exists_unsigned_of_dvd {n : Int} (finite : isFinite v = true) (nonnegative : 0 ≤ n) (less : n < magnitude v)
    (whole : (2 ^ scale v : Int) ∣ n) : ∃ c, Unsigned c ∧ weight c.toModel.unpack = n := by
  obtain ⟨j, rfl⟩ := whole
  obtain ⟨i, rfl⟩ : ∃ i : Nat, j = i :=
    Int.eq_ofNat_of_zero_le (nonneg_of_mul_nonneg_right nonnegative (by positivity))
  have less' : i * 2 ^ scale v < significand v * 2 ^ scale v := by
    rw [← magnitude_eq_parts finite, Nat.mul_comm]
    exact_mod_cast less
  have short : i < 2 ^ 53 := (Nat.lt_of_mul_lt_mul_right less').trans (significand_lt v)
  obtain ⟨plain, size⟩ := unsigned_ofParts short (weight_eq_parts finite).2
  refine ⟨_, plain, ?_⟩
  rw [plain.weight_eq, size]
  push_cast
  ring

/-- Where the dividend is no less than the divisor, nothing is rounded on the way from the remainder to the one that is
not negative. -/
theorem wrap_exact (left : isFinite a = true) (right : isFinite b = true) (divisor : 0 < magnitude b)
    (order : magnitude b ≤ magnitude a) :
    isFinite (wrap a b) = true ∧
      weight (wrap a b).toModel.unpack = weight a.toModel.unpack % weight b.toModel.unpack := by
  obtain ⟨finite, size⟩ := remainder_exact left right divisor
  have nonzero : weight b.toModel.unpack ≠ 0 := Int.natAbs_pos.mp divisor
  have nonnegative := Int.emod_nonneg (weight a.toModel.unpack) nonzero
  have less : weight a.toModel.unpack % weight b.toModel.unpack < magnitude b :=
    (Int.emod_lt_abs _ nonzero).trans_eq (Int.abs_eq_natAbs _)
  have negative := lt_iff_weight (not_isNaN_of_isFinite finite) (b := 0.0) (by decide)
  rw [isZero_zero.weight_eq, size] at negative
  rw [Int.tmod_eq_emod] at size negative
  unfold wrap
  simp only
  by_cases kept : 0 ≤ weight a.toModel.unpack ∨ weight b.toModel.unpack ∣ weight a.toModel.unpack
  · rw [if_pos kept, Nat.cast_zero, Int.sub_zero] at size negative
    rw [if_neg (mt negative.mp nonnegative.not_gt)]
    exact ⟨finite, size⟩
  · rw [if_neg kept] at size negative
    change weight (remainder a b).toModel.unpack = _ - (magnitude b : Int) at size
    rw [if_pos (negative.mpr (Int.sub_neg_of_lt less))]
    -- The sum that brings the remainder into the range is a number already, so nothing is rounded.
    have scales := scale_le_of_magnitude_le right left order
    have whole : (2 ^ scale b : Int) ∣ weight a.toModel.unpack % weight b.toModel.unpack :=
      (EuclideanDomain.dvd_mod_iff (pow_scale_dvd_weight right le_rfl)).mpr (pow_scale_dvd_weight left scales)
    obtain ⟨c, plain, weighs⟩ := exists_unsigned_of_dvd right nonnegative less whole
    have plain' := unsigned_abs right
    have sum : weight c.toModel.unpack = weight (remainder a b).toModel.unpack + weight b.abs.toModel.unpack := by
      rw [weighs, size, plain'.weight_eq, magnitude_abs (not_isNaN_of_isFinite right), Int.sub_add_cancel]
    rw [← weighs]
    exact add_exact finite plain'.isFinite plain.isFinite sum

end DriftField.Scalar
