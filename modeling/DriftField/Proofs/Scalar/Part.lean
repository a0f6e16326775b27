import Mathlib
import DriftField.Proofs.Scalar.Product
/-!
The way from one number to another: a proper part of it, added to where it starts, does not lead past where it ends,
although the difference, the part and the sum are all rounded.
-/

namespace DriftField.Scalar

open Float.Model Float.Model.UnpackedFloat

variable {low high u v : Float}

/-- Below full precision nothing is rounded. -/
theorem magnitude_of_rank_lt (plain : Unsigned v) (short : rank v < 2 ^ 53) : rank v = magnitude v := by
  cases plain with
  | zero s value =>
      rw [Unsigned.magnitude_zero value]
      unfold rank
      rw [value]
      rfl
  | finite m e positive value canonical =>
      have value' : rank v = (e + 1074) * 2 ^ 52 + m := by
        unfold rank
        rw [value]
        rfl
      rw [value'] at short
      have lowest : e = -1074 := by
        have := canonical.least
        have := canonical.long
        omega
      rw [value', Unsigned.magnitude_finite value, lowest]
      simp

/-- A part of a difference is no greater than the exact difference. The difference may have been rounded up, but a part
of a number of full precision is less than it, and below full precision nothing is rounded. -/
theorem part_le (order : low ≤ high) (finite : isFinite (high - low) = true) (part : Unsigned u) (proper : u < 1.0) :
    Unsigned (u * (high - low)) ∧
      (magnitude (u * (high - low)) : Int) ≤ weight high.toModel.unpack - weight low.toModel.unpack := by
  obtain ⟨left, right⟩ := not_isNaN_of_le order
  have number := not_isNaN_of_isFinite finite
  have whole : Unsigned (high - low) := unsigned (sub_nonneg order number) finite
  rw [le_iff_weight left right] at order
  have rank_eq := rank_sub number left
  obtain ⟨n, exact⟩ : ∃ n : Nat, weight high.toModel.unpack - weight low.toModel.unpack = n :=
    Int.eq_ofNat_of_zero_le (by omega)
  rw [exact] at rank_eq ⊢
  have rank_eq : rank (high - low) = nearestRank 0 n := rank_eq
  have above := mul_nonneg part whole
  have below := mul_le_right part whole (le_of_lt proper)
  have product : Unsigned (u * (high - low)) := unsigned above (isFinite_of_mem (by decide) finite above below)
  refine ⟨product, Int.ofNat_le.mpr ?_⟩
  by_contra greater
  rw [not_le] at greater
  have same : rank (u * (high - low)) = rank (high - low) := by
    apply ((le_iff_rank product.isNaN whole.isNaN).mp below).antisymm
    rw [rank_eq, product.rank_eq]
    exact nearestRank_mono 0 greater.le
  rcases le_or_gt (2 ^ 53) (rank (high - low)) with precise | short
  · have less := mul_lt_right part whole proper precise
    rw [lt_iff_rank product.isNaN whole.isNaN, same] at less
    exact lt_irrefl _ less
  · have size := magnitude_of_rank_lt product (same.trans_lt short)
    have fits : n < 2 ^ 53 := by omega
    have unrounded := nearestRank_exact fits (.inl rfl)
    rw [pow_zero, Nat.mul_one] at unrounded
    omega

theorem isFinite_width (above : 0.0 ≤ low) (order : low ≤ high) (last : isFinite high = true) :
    isFinite (high - low) = true := by
  have number := isNaN_sub_of_isFinite last (not_isNaN_of_le above).2
  exact isFinite_of_mem (by decide) last (sub_nonneg order number) (sub_le_self above number)

/-- A number between two others is reached by adding a part of their difference to the lesser one. -/
theorem add_part_mem (order : low ≤ high) (first : isFinite low = true) (finite : isFinite (high - low) = true)
    (part : Unsigned u) (proper : u < 1.0) : low ≤ low + u * (high - low) ∧ low + u * (high - low) ≤ high := by
  obtain ⟨product, bound⟩ := part_le order finite part proper
  have number := isNaN_add_of_isFinite (not_isNaN_of_isFinite first) product.isFinite
  refine ⟨le_add_of_nonneg product.nonneg number, ?_⟩
  have right := (not_isNaN_of_le order).2
  rw [le_iff_rank number right, (isNaN_add.mp number).rank_add, product.weight_eq]
  change _ ≤ place high.toModel.unpack
  rw [place_eq_rounded (isNumber right)]
  exact rounded_mono (by omega)

end DriftField.Scalar
