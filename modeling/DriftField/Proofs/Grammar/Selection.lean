import Mathlib
import DriftField.Grammar.Weights
import DriftField.Proofs.Scalar.Clamp
import DriftField.Proofs.Scalar.Product
/-!
The choice of a place by a draw is a walk along the running sums of a list. It stops at the first sum above that part of
the whole which the draw stands for, also where the sums fall again, and it stops before the end of the list whenever
that part is less than the whole. So a draw below one fails only where the list does not sum to one.
-/

namespace DriftField

namespace Weights

section Walk

variable {α : Type} [Weighing α] {threshold total draw mass : α} {ps : List α}

/-- The sum of the numbers up to a place, that at the place included. -/
def sumTo (ps : List α) (i : Fin ps.length) : α := sum (ps.take (i + 1))

theorem sumTo_last {i : Fin ps.length} (last : i + 1 = ps.length) : sumTo ps i = sum ps := by
  rw [sumTo, last, List.take_length]

/-- A walk stops at a place just when the running sum there is the first one above the threshold. -/
theorem walk_eq_some_iff {i : Fin ps.length} :
    walk threshold total ps = some i ↔
      threshold < (ps.take (i + 1)).foldl (· + ·) total ∧
        ∀ j < i, ¬ threshold < (ps.take (j + 1)).foldl (· + ·) total := by
  induction ps generalizing total with
  | nil => exact i.elim0
  | cons p ps induction =>
      rw [walk]
      cases i using Fin.cases with
      | zero =>
          split
          · next stops => simpa using stops
          · next goes => simpa using goes
      | succ i =>
          split
          · next stops =>
            refine iff_of_false (by simp [Fin.ext_iff]) fun ⟨_, first⟩ => ?_
            exact first 0 (Fin.succ_pos i) (by simpa using stops)
          · next goes =>
            simp [induction, Fin.forall_fin_succ, goes]

theorem walk_eq_none_iff :
    walk threshold total ps = none ↔
      ∀ i : Fin ps.length, ¬ threshold < (ps.take (i + 1)).foldl (· + ·) total := by
  induction ps generalizing total with
  | nil => exact iff_of_true rfl fun i => i.elim0
  | cons p ps induction =>
      rw [walk]
      split
      · next stops =>
        exact iff_of_false (by simp) fun none => none 0 (by simpa using stops)
      · next goes => simp [induction, Fin.forall_fin_succ, goes]

theorem select_of_unit (unit : isUnit (sum ps) = true) (draw : α) :
    select ps draw = (walk (draw * sum ps) 0.0 ps).elim (.error (sum ps)) .ok := by
  unfold select
  simp only
  rw [if_pos unit]
  cases walk (draw * sum ps) 0.0 ps <;> rfl

theorem select_of_not_unit (off : ¬ isUnit (sum ps) = true) (draw : α) : select ps draw = .error (sum ps) := by
  unfold select
  exact if_neg off

theorem select_eq_ok_iff {i : Fin ps.length} :
    select ps draw = .ok i ↔
      isUnit (sum ps) = true ∧ draw * sum ps < sumTo ps i ∧ ∀ j < i, ¬ draw * sum ps < sumTo ps j := by
  by_cases unit : isUnit (sum ps) = true
  · have stops : walk (draw * sum ps) 0.0 ps = some i ↔
        draw * sum ps < sumTo ps i ∧ ∀ j < i, ¬ draw * sum ps < sumTo ps j := walk_eq_some_iff
    rw [select_of_unit unit, and_iff_right unit]
    refine Iff.trans ?_ stops
    cases walk (draw * sum ps) 0.0 ps <;> simp
  · rw [select_of_not_unit unit]
    exact iff_of_false nofun fun ⟨unit', _⟩ => unit unit'

theorem select_eq_error_iff :
    select ps draw = .error mass ↔
      mass = sum ps ∧ (¬ isUnit (sum ps) = true ∨ ∀ i, ¬ draw * sum ps < sumTo ps i) := by
  by_cases unit : isUnit (sum ps) = true
  · have none : walk (draw * sum ps) 0.0 ps = none ↔ ∀ i, ¬ draw * sum ps < sumTo ps i := walk_eq_none_iff
    rw [select_of_unit unit, or_iff_right (not_not.mpr unit)]
    refine Iff.trans ?_ (and_congr_right' none)
    cases walk (draw * sum ps) 0.0 ps <;> simp [eq_comm]
  · rw [select_of_not_unit unit, Except.error.injEq, eq_comm]
    exact (and_iff_left (.inl unit)).symm

theorem exists_select_of_exceeds {i : Fin ps.length} (unit : isUnit (sum ps) = true)
    (exceeds : draw * sum ps < sumTo ps i) : ∃ j, select ps draw = .ok j := by
  cases selected : select ps draw with
  | error mass => exact absurd exceeds (((select_eq_error_iff.mp selected).2.resolve_left (not_not.mpr unit)) i)
  | ok j => exact ⟨j, rfl⟩

/-- The last running sum is the whole, so a walk toward less than the whole stops there at the latest. -/
theorem exists_select_of_lt (unit : isUnit (sum ps) = true) (nonempty : ps ≠ []) (below : draw * sum ps < sum ps) :
    ∃ i, select ps draw = .ok i := by
  obtain ⟨n, length⟩ := Nat.exists_eq_add_one_of_ne_zero (List.length_pos_iff.mpr nonempty).ne'
  have whole : sumTo ps ⟨n, by omega⟩ = sum ps := sumTo_last length.symm
  apply exists_select_of_exceeds unit
  rw [whole]
  exact below

end Walk

section Binary64

open Scalar

variable {draw mass : Float} {ps : List Float}

theorem isUnit_iff : isUnit mass = true ↔ (mass - 1.0).abs ≤ 1e-9 := by
  rw [abs_le_iff, isUnit, Bool.and_eq_true, decide_eq_true_iff, decide_eq_true_iff]
  rfl

/-- A sum that counts as one lies between a half and two. -/
theorem near_one (near : (mass - 1.0).abs ≤ 1e-9) : 0.5 ≤ mass ∧ mass ≤ 2.0 := by
  obtain ⟨below, above⟩ := abs_le_iff.mp near
  have number := (not_isNaN_of_le below).1
  have left := (summands_sub number (by decide)).left
  obtain ⟨negated, rank_eq⟩ := rank_zero_sub number
  constructor
  -- A sum below a half, or above two, is farther from one than these bounds allow.
  · refine (lt_or_le left (by decide)).resolve_left fun less => ?_
    have far := sub_le_sub (le_of_lt less) (le_refl (v := 1.0) (by decide)) number (by decide)
    rw [le_iff_rank number (by decide)] at far
    rw [le_iff_rank negated (by decide), rank_eq] at above
    have apart : rank (0.5 - 1.0) < -rank 1e-9 := by decide +kernel
    omega
  · refine (lt_or_le (by decide) left).resolve_left fun greater => ?_
    have far := sub_le_sub (le_of_lt greater) (le_refl (v := 1.0) (by decide)) (by decide) number
    exact not_lt_of_le (le_trans far below) (by decide +kernel)

/-- A number from zero on and below one takes a proper part of a sum that counts as one. -/
theorem part_lt (near : (mass - 1.0).abs ≤ 1e-9) (nonnegative : 0.0 ≤ draw) (proper : draw < 1.0) :
    draw * mass < mass := by
  obtain ⟨above, below⟩ := near_one near
  have first := unsigned nonnegative (isFinite_of_mem (by decide) (by decide) nonnegative (le_of_lt proper))
  have whole := unsigned (le_trans (by decide) above) (isFinite_of_mem (by decide) (by decide) above below)
  rw [le_iff_rank (by decide) whole.isNaN] at above
  have precise : 2 ^ 53 ≤ rank 0.5 := by decide +kernel
  exact mul_lt_right first whole proper (precise.trans above)

theorem ne_nil_of_near_one (near : (sum ps - 1.0).abs ≤ 1e-9) : ps ≠ [] := by
  rintro rfl
  revert near
  decide +kernel

/-- Where a list does not sum to one, no place is chosen, and the sum is the error. Elsewhere it is the first place at
which the running sum exceeds that part of the whole which the draw stands for, and an error only if there is none.
There is one whenever that part is less than the whole, which is the last of the running sums, and so for every draw
from zero on and below one. -/
theorem selects_first_above (ps : List Float) (draw : Float) :
    (¬ (sum ps - 1.0).abs ≤ 1e-9 → select ps draw = .error (sum ps)) ∧
    ((sum ps - 1.0).abs ≤ 1e-9 →
      (∀ i, select ps draw = .ok i ↔ draw * sum ps < sumTo ps i ∧ ∀ j < i, ¬ draw * sum ps < sumTo ps j) ∧
      ((∃ i, draw * sum ps < sumTo ps i) → ∃ i, select ps draw = .ok i) ∧
      ((∀ i, ¬ draw * sum ps < sumTo ps i) → select ps draw = .error (sum ps)) ∧
      (∀ i : Fin ps.length, i + 1 = ps.length → sumTo ps i = sum ps) ∧
      (draw * sum ps < sum ps → ∃ i, select ps draw = .ok i) ∧
      (0.0 ≤ draw → draw < 1.0 → draw * sum ps < sum ps)) := by
  rw [← isUnit_iff]
  refine ⟨fun off => select_of_not_unit off draw, fun unit => ?_⟩
  have near := isUnit_iff.mp unit
  refine ⟨fun i => ?_, fun ⟨i, exceeds⟩ => exists_select_of_exceeds unit exceeds, fun none => ?_,
    fun i => sumTo_last, exists_select_of_lt unit (ne_nil_of_near_one near), part_lt near⟩
  · rw [select_eq_ok_iff, and_iff_right unit]
  · exact select_eq_error_iff.mpr ⟨rfl, .inr none⟩

/-- Running sums may fall again: the first one above the threshold counts, whatever comes after it. -/
theorem falling_sums_select :
    select [0.5, -0.25, 0.75] 0.375 = .ok (0 : Fin 3) ∧ select [0.5, -0.25, 0.75] 0.625 = .ok (2 : Fin 3) ∧
      select [0.5, Scalar.nan] 0.25 = .error (sum [0.5, Scalar.nan]) ∧
      ∀ draw : Float, 0.0 ≤ draw → draw < 1.0 → ∃ i, select [0.5, -0.25, 0.75] draw = .ok i := by
  have near : (sum [0.5, -0.25, 0.75] - 1.0 : Float).abs ≤ 1e-9 := by decide +kernel
  refine ⟨?_, ?_, (selects_first_above [0.5, Scalar.nan] 0.25).1 (by decide +kernel),
    fun draw nonnegative proper => ?_⟩
  · exact (((selects_first_above [0.5, -0.25, 0.75] 0.375).2 near).1 (0 : Fin 3)).mpr (by decide +kernel)
  · exact (((selects_first_above [0.5, -0.25, 0.75] 0.625).2 near).1 (2 : Fin 3)).mpr (by decide +kernel)
  · obtain ⟨-, -, -, -, ends, part⟩ := (selects_first_above [0.5, -0.25, 0.75] draw).2 near
    exact ends (part nonnegative proper)

end Binary64

end Weights

end DriftField
