import Mathlib
import DriftField.Proofs.Scalar.Sum
/-!
Zeros: a finite number times a zero is a zero, and a zero of either sign, added to a number or taken from it, leaves the
number.
-/

namespace DriftField.Scalar

open Float.Model Float.Model.UnpackedFloat

variable {a v w z : Float}

/-- The same number. The two zeros are not told apart. -/
def Same (v w : Float) : Prop := v = w ∨ (v == w) = true

theorem Same.refl (v : Float) : Same v v := .inl rfl

theorem same_of_rank (left : v.isNaN = false) (right : w.isNaN = false) (order : rank v = rank w) : Same v w := by
  right
  change (v.toModel.unpack.compare w.toModel.unpack == some .eq) = true
  rw [compare_place (isNumber left) (isNumber right), beq_iff_eq, Option.some.injEq]
  exact compare_eq_iff_eq.mpr order

theorem Same.eq_or_rank (same : Same v w) :
    v = w ∨ v.isNaN = false ∧ w.isNaN = false ∧ rank v = rank w := by
  refine same.imp id fun equal => ?_
  change (v.toModel.unpack.compare w.toModel.unpack == some .eq) = true at equal
  have compared := eq_of_beq equal
  obtain ⟨left, right⟩ := not_isNaN_of_compare compared
  rw [compare_place (isNumber left) (isNumber right), Option.some.injEq] at compared
  exact ⟨left, right, compare_eq_iff_eq.mp compared⟩

theorem Same.symm (same : Same v w) : Same w v := by
  rcases same.eq_or_rank with equal | ⟨left, right, order⟩
  · exact .inl equal.symm
  · exact same_of_rank right left order.symm

theorem Same.le_left (same : Same v w) (order : v ≤ a) : w ≤ a := by
  rcases same.eq_or_rank with rfl | ⟨left, right, equal⟩
  · exact order
  · have number := (not_isNaN_of_le order).2
    rw [le_iff_rank left number] at order
    exact (le_iff_rank right number).mpr (equal.symm.le.trans order)

theorem Same.le_right (same : Same v w) (order : a ≤ v) : a ≤ w := by
  rcases same.eq_or_rank with rfl | ⟨left, right, equal⟩
  · exact order
  · have number := (not_isNaN_of_le order).1
    rw [le_iff_rank number left] at order
    exact (le_iff_rank number right).mpr (order.trans equal.le)

theorem Same.le_iff_left (same : Same v w) : v ≤ a ↔ w ≤ a := ⟨same.le_left, same.symm.le_left⟩

theorem Same.le_iff_right (same : Same v w) : a ≤ v ↔ a ≤ w := ⟨same.le_right, same.symm.le_right⟩

theorem unpack_pack_notANumber :
    UnpackedFloat.unpack Format.binary64 (UnpackedFloat.pack Format.binary64 .notANumber) = .notANumber := by
  change UnpackedFloat.unpack Format.binary64 (packedNaN Format.binary64) = .notANumber
  unfold UnpackedFloat.unpack
  rw [if_pos (by decide), if_neg (by decide)]

def IsZero (z : Float) : Prop := ∃ s, z.toModel.unpack = .zero s

theorem isZero_zero : IsZero 0.0 := ⟨.positive, rfl⟩

namespace IsZero

theorem isNaN (zero : IsZero z) : z.isNaN = false := by
  obtain ⟨s, value⟩ := zero
  change z.toModel.unpack.isNaN = false
  rw [value]
  rfl

theorem weight_eq (zero : IsZero z) : weight z.toModel.unpack = 0 := by
  obtain ⟨s, value⟩ := zero
  rw [value]
  rfl

theorem neg (zero : IsZero z) : IsZero (-z) := by
  obtain ⟨s, value⟩ := id zero
  refine ⟨-s, ?_⟩
  rw [unpack_neg zero.isNaN, value]
  rfl

theorem abs (zero : IsZero z) : IsZero z.abs := by
  obtain ⟨s, value⟩ := zero
  refine ⟨.positive, ?_⟩
  change UnpackedFloat.unpack Format.binary64 (UnpackedFloat.pack Format.binary64 z.toModel.unpack.abs) = _
  rw [value]
  exact unpack_pack (u := .zero .positive) trivial

theorem not_lt (zero : IsZero z) (nonnegative : 0.0 ≤ a) : ¬ a < z := by
  apply not_lt_of_le
  have number := (not_isNaN_of_le nonnegative).2
  rw [le_iff_weight (by decide) number] at nonnegative
  rw [le_iff_weight zero.isNaN number, zero.weight_eq]
  exact nonnegative

/-- Even no number stays what it is. -/
theorem add_same (zero : IsZero z) (v : Float) : Same (v + z) v := by
  cases number : v.isNaN with
  | false =>
      have summable : ¬ Opposite v.toModel.unpack z.toModel.unpack := by
        rintro ⟨s, -, infinite⟩
        obtain ⟨t, value⟩ := zero
        rw [value] at infinite
        cases infinite
      have summands : Summands v z := ⟨number, zero.isNaN, summable⟩
      refine same_of_rank (isNaN_add.mpr summands) number ?_
      rw [summands.rank_add, zero.weight_eq, add_zero]
      exact (place_eq_rounded (isNumber number)).symm
  | true =>
      obtain ⟨t, value'⟩ := zero
      left
      apply eq_of_unpack_eq
      change v.toModel.unpack.isNaN = true at number
      cases value : v.toModel.unpack with
      | notANumber =>
          change UnpackedFloat.unpack Format.binary64 (UnpackedFloat.pack Format.binary64
            (UnpackedFloat.add Format.binary64 v.toModel.unpack z.toModel.unpack)) = _
          rw [value, value']
          exact unpack_pack_notANumber
      | _ =>
          rw [value] at number
          cases number

theorem sub_same (zero : IsZero z) (v : Float) : Same (v - z) v := by
  rw [sub_eq_add_neg zero.isNaN]
  exact zero.neg.add_same v

theorem mul (finite : isFinite v = true) (zero : IsZero z) : IsZero (v * z) := by
  obtain ⟨t, value'⟩ := zero
  change v.toModel.unpack.isFinite = true at finite
  have product (s : Sign) (value : UnpackedFloat.mul Format.binary64 v.toModel.unpack z.toModel.unpack = .zero s) :
      IsZero (v * z) := by
    refine ⟨s, ?_⟩
    change UnpackedFloat.unpack Format.binary64 (UnpackedFloat.pack Format.binary64
      (UnpackedFloat.mul Format.binary64 v.toModel.unpack z.toModel.unpack)) = _
    rw [value]
    exact unpack_pack trivial
  cases value : v.toModel.unpack with
  | notANumber =>
      rw [value] at finite
      cases finite
  | infinity s =>
      rw [value] at finite
      cases finite
  | zero s =>
      apply product (s * t)
      rw [value, value']
      rfl
  | finite s m e positive =>
      apply product (s * t)
      rw [value, value']
      rfl

end IsZero

theorem Same.isFinite (same : Same v w) (finite : isFinite w = true) : isFinite v = true := by
  rcases same.eq_or_rank with rfl | ⟨left, -, order⟩
  · exact finite
  · apply isFinite_of_rank_lt left
    rw [order]
    exact rank_lt_of_isFinite finite

end DriftField.Scalar
