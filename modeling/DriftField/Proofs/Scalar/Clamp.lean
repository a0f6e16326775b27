import Mathlib
import DriftField.Proofs.Scalar.Zero
/-!
Clamping to a symmetric range: the magnitude of what comes out is at most that of the limit, whatever goes in.
-/

namespace DriftField.Scalar

open Float.Model Float.Model.UnpackedFloat

variable {v limit : Float}

theorem place_neg (u : UnpackedFloat) : place u.neg = -place u := by
  cases u with
  | notANumber => rfl
  | zero s => rfl
  | infinity s => exact apply_neg s _
  | finite s m e positive => exact apply_neg s _

theorem place_abs {u : UnpackedFloat} (number : IsNumber u) : place u.abs = |place u| := by
  cases u with
  | notANumber => cases number
  | zero s => rfl
  | infinity s => cases s <;> rfl
  | finite s m e positive =>
      have above := Canonical.place_pos number positive
      cases s with
      | positive => exact (abs_of_pos above).symm
      | negative => exact (abs_of_pos above).symm.trans (abs_neg _).symm

theorem rank_neg (number : v.isNaN = false) : rank (-v) = -rank v := by
  unfold rank
  rw [unpack_neg number, place_neg]

theorem rank_abs (number : v.isNaN = false) : rank v.abs = |rank v| := by
  unfold rank
  rw [unpack_abs number, place_abs (isNumber number)]

theorem zero_le_abs (number : v.isNaN = false) : 0.0 ≤ v.abs := by
  rw [le_iff_rank (by decide) (isNaN_abs number), rank_abs number]
  exact abs_nonneg (rank v)

theorem neg_abs_le_zero (number : v.isNaN = false) : -v.abs ≤ 0.0 := by
  have number' := isNaN_abs number
  rw [le_iff_rank (isNaN_neg number') (by decide), rank_neg number', rank_abs number]
  exact neg_nonpos.mpr (abs_nonneg (rank v))

theorem isFinite_neg (finite : isFinite v = true) : isFinite (-v) = true := by
  have number := not_isNaN_of_isFinite finite
  refine isFinite_of_rank_lt (isNaN_neg number) ?_
  rw [rank_neg number, abs_neg]
  exact rank_lt_of_isFinite finite

theorem abs_le_of_mem (above : -limit ≤ v) (below : v ≤ limit) : v.abs ≤ limit := by
  obtain ⟨number, right⟩ := not_isNaN_of_le below
  rw [le_iff_rank (isNaN_neg right) number, rank_neg right] at above
  rw [le_iff_rank number right] at below
  rw [le_iff_rank (isNaN_abs number) right, rank_abs number]
  exact abs_le.mpr ⟨above, below⟩

theorem not_isNaN_of_abs (number : v.abs.isNaN = false) : v.isNaN = false := by
  change (UnpackedFloat.unpack Format.binary64 (UnpackedFloat.pack Format.binary64 v.toModel.unpack.abs)).isNaN = false
    at number
  change v.toModel.unpack.isNaN = false
  cases value : v.toModel.unpack with
  | notANumber =>
      rw [value] at number
      exact (congrArg UnpackedFloat.isNaN unpack_pack_notANumber).symm.trans number
  | _ => rfl

theorem rank_zero_sub (number : v.isNaN = false) : (0.0 - v).isNaN = false ∧ rank (0.0 - v) = -rank v := by
  have negated := isNaN_sub_of_isFinite (a := 0.0) (by decide) number
  refine ⟨negated, ?_⟩
  rw [rank_sub negated number, isZero_zero.weight_eq, zero_sub, rounded_neg, ← place_eq_rounded (isNumber number)]
  rfl

theorem abs_le_iff : v.abs ≤ limit ↔ v ≤ limit ∧ 0.0 - v ≤ limit := by
  constructor
  · intro bounded
    obtain ⟨magnitude, right⟩ := not_isNaN_of_le bounded
    have number := not_isNaN_of_abs magnitude
    obtain ⟨negated, rank_eq⟩ := rank_zero_sub number
    rw [le_iff_rank magnitude right, rank_abs number, abs_le] at bounded
    rw [le_iff_rank number right, le_iff_rank negated right, rank_eq]
    exact ⟨bounded.2, neg_le.mp bounded.1⟩
  · intro ⟨below, above⟩
    obtain ⟨number, right⟩ := not_isNaN_of_le below
    obtain ⟨negated, rank_eq⟩ := rank_zero_sub number
    rw [le_iff_rank negated right, rank_eq] at above
    rw [le_iff_rank number right] at below
    rw [le_iff_rank (isNaN_abs number) right, rank_abs number, abs_le]
    exact ⟨neg_le.mp above, below⟩

theorem clampSymmetric_mem (number : limit.isNaN = false) (v : Float) :
    -limit.abs ≤ clampSymmetric v limit ∧ clampSymmetric v limit ≤ limit.abs := by
  have above := neg_abs_le_zero number
  have below := zero_le_abs number
  unfold clampSymmetric
  rw [number]
  cases v.isNaN with
  | true => exact ⟨above, below⟩
  | false => exact within_mem (le_trans above below) v

theorem clampSymmetric_bounded (finite : isFinite limit = true) (v : Float) :
    isFinite (clampSymmetric v limit) = true ∧ (clampSymmetric v limit).abs ≤ limit.abs := by
  obtain ⟨above, below⟩ := clampSymmetric_mem (not_isNaN_of_isFinite finite) v
  have bounded := abs_le_of_mem above below
  have magnitude : isFinite (clampSymmetric v limit).abs = true :=
    isFinite_of_mem (by decide) ((isFinite_abs limit).trans finite) (zero_le_abs (not_isNaN_of_le below).1) bounded
  rw [isFinite_abs] at magnitude
  exact ⟨magnitude, bounded⟩

theorem clampSymmetric_zero (limit : Float) : clampSymmetric 0.0 limit = 0.0 := by
  have number : (0.0 : Float).isNaN = false := by decide
  unfold clampSymmetric
  rw [number]
  cases number' : limit.isNaN with
  | true => rfl
  | false => exact within_eq_self (neg_abs_le_zero number') (zero_le_abs number')

end DriftField.Scalar
