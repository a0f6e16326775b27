import Mathlib
import DriftField.Arrow
import DriftField.Proofs.Scalar.Plus
import DriftField.Proofs.Viewport
/-!
Grids of arrows. Along each side the points of a grid are a walk from zero by the distance of the points, as long as it
is below the side. The walk adds and rounds. It stands at the multiples of the distance just when each of them is a
number, and at as many places as there are multiples just when no rounded sum is on the other side of the end.
-/

namespace DriftField

namespace Grid

open Scalar

/-- A walk from a number on by a step as long as it is below a bound, which ends, and where it stood. -/
inductive Walk (step bound : Float) : Float → List Float → Prop
  | stop {v : Float} (past : ¬ v < bound) : Walk step bound v []
  | go {v : Float} {rest : List Float} (before : v < bound) (on : Walk step bound (v + step) rest) :
      Walk step bound v (v :: rest)

def after (step v : Float) (n : Nat) : Float := (fun v => v + step)^[n] v

/-- There are as many marks as multiples of the step below the bound. -/
def Counted (step bound : Float) (marks : List Float) : Prop :=
  ∀ i, i < marks.length ↔ i * magnitude step < magnitude bound

/-- The marks are the multiples of the step below the bound, each once and in order. -/
structure OnLattice (step bound : Float) (marks : List Float) : Prop where
  counted : Counted step bound marks
  exact (i : Nat) (h : i < marks.length) : Unsigned marks[i] ∧ magnitude marks[i] = i * magnitude step

/-- Each multiple of the step below the bound is a number. -/
def Representable (step bound : Float) : Prop :=
  ∀ i : Nat, i * magnitude step < magnitude bound → ∃ v, Unsigned v ∧ magnitude v = i * magnitude step

/-- Each rounded sum is on the same side of the bound as the multiple that it stands for. -/
def InStep (step bound : Float) : Prop :=
  ∀ i : Nat, after step 0.0 i < bound ↔ i * magnitude step < magnitude bound

variable {step bound v : Float} {marks : List Float}

theorem after_succ (step v : Float) (n : Nat) : after step v (n + 1) = after step v n + step :=
  Function.iterate_succ_apply' _ n v

theorem plus_after (positive : 0.0 < step) (plus : Plus v.toModel.unpack) (n : Nat) :
    Plus (after step v n).toModel.unpack := by
  induction n with
  | zero => exact plus
  | succ n ih =>
      rw [after_succ]
      exact (ih.add (plus_of_pos positive)).repacked

theorem le_after (positive : 0.0 < step) (plus : Plus v.toModel.unpack) (n : Nat) : v ≤ after step v n := by
  induction n with
  | zero => exact le_refl plus.isNaN
  | succ n ih =>
      have number := (plus_after positive plus (n + 1)).isNaN
      rw [after_succ] at number ⊢
      exact le_trans ih (le_add_of_nonneg (le_of_lt positive) number)

theorem exists_walk (n : Nat) : ∀ v, ¬ after step v n < bound → ∃ marks, Walk step bound v marks := by
  induction n with
  | zero => exact fun v past => ⟨[], .stop past⟩
  | succ n ih =>
      intro v past
      by_cases before : v < bound
      · obtain ⟨rest, on⟩ := ih (v + step) past
        exact ⟨v :: rest, .go before on⟩
      · exact ⟨[], .stop before⟩

namespace Walk

theorem moves (walk : Walk step bound v marks) (before : v < bound) : v + step ≠ v := by
  induction walk with
  | stop past => exact absurd before past
  | go _ on ih =>
      -- a step that is lost is lost for ever
      intro stays
      rw [stays] at ih
      exact ih before stays

theorem marks_eq (walk : Walk step bound v marks) (positive : 0.0 < step) (plus : Plus v.toModel.unpack) :
    Arrow.marks step bound v = marks := by
  induction walk with
  | stop past => rw [Arrow.marks, if_neg past]
  | go before on ih =>
      have grows := (plus.stay_or_grow positive).resolve_left (moves (.go before on) before)
      rw [Arrow.marks, if_pos before, dif_pos grows, ih (plus.add (plus_of_pos positive)).repacked]

theorem getElem_eq (walk : Walk step bound v marks) : ∀ i (h : i < marks.length), marks[i] = after step v i := by
  induction walk with
  | stop past => exact fun i h => absurd h (Nat.not_lt_zero i)
  | go before on ih =>
      intro i h
      cases i with
      | zero => rfl
      | succ i => exact ih i (Nat.lt_of_succ_lt_succ h)

theorem lt_length_iff (walk : Walk step bound v marks) (positive : 0.0 < step) (plus : Plus v.toModel.unpack) :
    ∀ i, i < marks.length ↔ after step v i < bound := by
  induction walk with
  | @stop v past =>
      refine fun i => iff_of_false (Nat.not_lt_zero i) fun before => ?_
      have beyond := (lt_or_le plus.isNaN (not_isNaN_of_lt before).2).resolve_left past
      exact not_lt_of_le (le_trans beyond (le_after positive plus i)) before
  | go before on ih =>
      intro i
      cases i with
      | zero => exact iff_of_true (Nat.succ_pos _) before
      | succ i => exact Nat.succ_lt_succ_iff.trans (ih (plus.add (plus_of_pos positive)).repacked i)

end Walk

/-! Walks from zero. -/

theorem plus_zero : Plus (0.0 : Float).toModel.unpack := .zero

theorem magnitude_pos (positive : 0.0 < step) (left : Unsigned step) : 0 < magnitude step := by
  rwa [lt_iff_magnitude unsigned_zero left, magnitude_zero] at positive

theorem exists_past (positive : 0.0 < step) (left : Unsigned step) :
    ¬ magnitude bound * magnitude step < magnitude bound :=
  (Nat.le_mul_of_pos_right _ (magnitude_pos positive left)).not_gt

theorem counted_iff (positive : 0.0 < step) (left : Unsigned step) :
    (∃ marks, Walk step bound 0.0 marks ∧ Counted step bound marks) ↔ InStep step bound := by
  constructor
  · intro ⟨marks, walk, counted⟩ i
    rw [← walk.lt_length_iff positive plus_zero, counted]
  · intro inStep
    obtain ⟨marks, walk⟩ := exists_walk (magnitude bound) 0.0 (mt (inStep _).mp (exists_past positive left))
    exact ⟨marks, walk, fun i => (walk.lt_length_iff positive plus_zero i).trans (inStep i)⟩

theorem Representable.exact (representable : Representable step bound) (left : Unsigned step) (i : Nat)
    (before : i * magnitude step < magnitude bound) :
    Unsigned (after step 0.0 i) ∧ magnitude (after step 0.0 i) = i * magnitude step := by
  induction i with
  | zero =>
      rw [Nat.zero_mul]
      exact ⟨unsigned_zero, magnitude_zero⟩
  | succ i ih =>
      obtain ⟨plain, here⟩ := ih ((Nat.mul_le_mul_right _ (Nat.le_succ i)).trans_lt before)
      obtain ⟨next, number, size⟩ := representable (i + 1) before
      have sum : magnitude next = magnitude (after step 0.0 i) + magnitude step := by rw [size, here, Nat.succ_mul]
      rw [after_succ, ← size]
      exact add_eq_of_magnitude plain left number sum

/-- The first sum past the bound may be rounded, but stays past the bound. -/
theorem Representable.inStep (representable : Representable step bound) (positive : 0.0 < step)
    (left : Unsigned step) (right : Unsigned bound) : InStep step bound := by
  intro i
  by_cases before : i * magnitude step < magnitude bound
  · obtain ⟨plain, here⟩ := representable.exact left i before
    rw [lt_iff_magnitude plain right, here]
  · -- once past the bound the sums stay there; the first one there comes from an exact one
    refine iff_of_false (not_lt_of_le ?_) before
    induction i with
    | zero =>
        rw [Nat.zero_mul] at before
        exact (le_iff_magnitude right unsigned_zero).mpr (not_lt.mp before |>.trans (Nat.zero_le _))
    | succ i ih =>
        rw [after_succ]
        by_cases before' : i * magnitude step < magnitude bound
        · obtain ⟨plain, here⟩ := representable.exact left i before'
          refine le_add_of_magnitude plain left right ?_
          rw [here, ← Nat.succ_mul]
          exact not_lt.mp before
        · have number := (plus_after positive plus_zero (i + 1)).isNaN
          rw [after_succ] at number
          exact le_trans (ih before') (le_add_of_nonneg (le_of_lt positive) number)

theorem onLattice_iff (positive : 0.0 < step) (left : Unsigned step) (right : Unsigned bound) :
    (∃ marks, Walk step bound 0.0 marks ∧ OnLattice step bound marks) ↔ Representable step bound := by
  constructor
  · intro ⟨marks, _, lattice⟩ i before
    have inside := (lattice.counted i).mpr before
    exact ⟨marks[i], lattice.exact i inside⟩
  · intro representable
    obtain ⟨marks, walk, counted⟩ := (counted_iff positive left).mpr (representable.inStep positive left right)
    refine ⟨marks, walk, counted, fun i h => ?_⟩
    rw [walk.getElem_eq i h]
    exact representable.exact left i ((counted i).mp h)

/-! Arrows at the points of a grid. -/

theorem isSome_ofVector? (origin v : Vec) :
    (Arrow.ofVector? origin v).isSome ↔ v.isFinite = true ∧ 0.5 < v.length := by
  unfold Arrow.ofVector? Arrow.leastMagnitude
  cases finite : v.isFinite with
  | false => simp
  | true =>
      have number := Vec.isNaN_length finite
      dsimp only
      split
      · next short =>
        have weak : v.length ≤ 0.5 := by simpa using short
        simpa using not_lt_of_le weak
      · next long =>
        have strong : ¬ v.length ≤ 0.5 := by simpa using long
        simpa using (lt_or_le (by decide) number).resolve_right strong

theorem origin_of_mem {origin v : Vec} {a : Arrow} (some_ : a ∈ Arrow.ofVector? origin v) : a.origin = origin := by
  unfold Arrow.ofVector? at some_
  dsimp only at some_
  split at some_
  · cases some_
  · cases some_
    rfl

/-- A grid is all of the lattice just when every multiple of the step below a side is a number; it has as many points
just when each rounded sum is on the same side of the end as its multiple. Whenever the walks along both sides end, the
grid shows, row by row, the points where the field is finite and long enough. -/
theorem grid_visits_lattice_iff (view : Viewport) (step : Float) (field : Vec → Vec) (finite : isFinite step = true)
    (positive : 0.0 < step) :
    ((∃ columns rows, Walk step view.width 0.0 columns ∧ Walk step view.height 0.0 rows ∧
        OnLattice step view.width columns ∧ OnLattice step view.height rows) ↔
      Representable step view.width ∧ Representable step view.height) ∧
    ((∃ columns rows, Walk step view.width 0.0 columns ∧ Walk step view.height 0.0 rows ∧
        Counted step view.width columns ∧ Counted step view.height rows) ↔
      InStep step view.width ∧ InStep step view.height) ∧
    (∀ columns rows, Walk step view.width 0.0 columns → Walk step view.height 0.0 rows →
      Arrow.grid view step field =
        rows.flatMap fun y => columns.filterMap fun x => Arrow.ofVector? ⟨x, y⟩ (field ⟨x, y⟩)) ∧
    ∀ p v, ((Arrow.ofVector? p v).isSome ↔ v.isFinite = true ∧ 0.5 < v.length) ∧
      ∀ a ∈ Arrow.ofVector? p v, a.origin = p := by
  have left := unsigned (le_of_lt positive) finite
  obtain ⟨width, height⟩ := view.unsigned_sides
  refine ⟨?_, ?_, ?_, fun p v => ⟨isSome_ofVector? p v, fun a => origin_of_mem⟩⟩
  · rw [← onLattice_iff positive left width, ← onLattice_iff positive left height]
    constructor
    · intro ⟨columns, rows, walk, walk', lattice, lattice'⟩
      exact ⟨⟨columns, walk, lattice⟩, ⟨rows, walk', lattice'⟩⟩
    · intro ⟨⟨columns, walk, lattice⟩, ⟨rows, walk', lattice'⟩⟩
      exact ⟨columns, rows, walk, walk', lattice, lattice'⟩
  · rw [← counted_iff positive left, ← counted_iff positive left]
    constructor
    · intro ⟨columns, rows, walk, walk', counted, counted'⟩
      exact ⟨⟨columns, walk, counted⟩, ⟨rows, walk', counted'⟩⟩
    · intro ⟨⟨columns, walk, counted⟩, ⟨rows, walk', counted'⟩⟩
      exact ⟨columns, rows, walk, walk', counted, counted'⟩
  · intro columns rows walk walk'
    have gate : (isFinite step && step > 0.0) = true := Bool.and_eq_true_iff.mpr ⟨finite, decide_eq_true positive⟩
    unfold Arrow.grid
    rw [if_pos gate, walk.marks_eq positive plus_zero, walk'.marks_eq positive plus_zero]

def wide : Viewport := ⟨180.0, 120.0, by decide⟩

theorem sixties_visit_lattice :
    ∃ columns rows, Walk 60.0 wide.width 0.0 columns ∧ Walk 60.0 wide.height 0.0 rows ∧
      OnLattice 60.0 wide.width columns ∧ OnLattice 60.0 wide.height rows := by
  have step : magnitude 60.0 = 60 * 2 ^ 1074 := by decide +kernel
  have few {bound : Float} {i : Nat} (short : magnitude bound ≤ 180 * 2 ^ 1074)
      (inside : i * magnitude 60.0 < magnitude bound) : i < 3 := by
    rw [step] at inside
    omega
  have multiples {bound : Float} (short : magnitude bound ≤ 180 * 2 ^ 1074) : Representable 60.0 bound := by
    intro i inside
    have small := few short inside
    interval_cases i
    · exact ⟨0.0, unsigned_zero, by decide +kernel⟩
    · exact ⟨60.0, unsigned (by decide) (by decide), by decide +kernel⟩
    · exact ⟨120.0, unsigned (by decide) (by decide), by decide +kernel⟩
  exact (grid_visits_lattice_iff wide 60.0 (fun p => p) (by decide) (by decide)).1.mpr
    ⟨multiples (by decide +kernel), multiples (by decide +kernel)⟩

def narrow : Viewport := ⟨1.0, 0.05, by decide⟩

/-- Ten tenths are more than one, but added up they are less: there is a column too many. -/
theorem tenths_add_column :
    ∃ columns rows, Walk 0.1 narrow.width 0.0 columns ∧ Walk 0.1 narrow.height 0.0 rows ∧ columns.length = 11 ∧
      ∀ i : Nat, i * magnitude 0.1 < magnitude narrow.width ↔ i < 10 := by
  have positive : (0.0 : Float) < 0.1 := by decide
  obtain ⟨columns, walk⟩ : ∃ columns, Walk 0.1 narrow.width 0.0 columns := exists_walk 11 0.0 (by decide +kernel)
  obtain ⟨rows, walk'⟩ : ∃ rows, Walk 0.1 narrow.height 0.0 rows := exists_walk 1 0.0 (by decide +kernel)
  have last := (walk.lt_length_iff positive plus_zero 10).mpr (by decide +kernel)
  have past := mt (walk.lt_length_iff positive plus_zero 11).mp (by decide +kernel)
  refine ⟨columns, rows, walk, walk', by omega, fun i => ?_⟩
  have tenth : magnitude 0.1 = 7205759403792794 * 2 ^ 1018 := by decide +kernel
  have one : magnitude narrow.width = 2 ^ 56 * 2 ^ 1018 := by decide +kernel
  rw [tenth, one]
  omega

end Grid

end DriftField
