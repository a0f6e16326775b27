import Mathlib
import DriftField.Proofs.Scalar.Product
import DriftField.Viewport
/-!
The visible area. Its sides are finite and not negative, so growing it loses none of its points.
-/

namespace DriftField

namespace Viewport

variable {view : Viewport} {margin : Float} {p : Vec}

theorem sides (view : Viewport) :
    (Scalar.isFinite view.width = true ∧ 0.0 ≤ view.width) ∧
      Scalar.isFinite view.height = true ∧ 0.0 ≤ view.height := by
  have admitted := view.admitted
  unfold admits at admitted
  simp only [Bool.and_eq_true, decide_eq_true_eq] at admitted
  obtain ⟨⟨⟨width, height⟩, positive⟩, positive'⟩ := admitted
  exact ⟨⟨width, Scalar.le_of_lt positive⟩, height, Scalar.le_of_lt positive'⟩

theorem unsigned_sides (view : Viewport) : Scalar.Unsigned view.width ∧ Scalar.Unsigned view.height := by
  obtain ⟨⟨width, above⟩, height, above'⟩ := view.sides
  exact ⟨Scalar.unsigned above width, Scalar.unsigned above' height⟩

structure Holds (view : Viewport) (p : Vec) : Prop where
  left : 0.0 ≤ p.x
  right : p.x ≤ view.width
  top : 0.0 ≤ p.y
  bottom : p.y ≤ view.height

theorem Holds.isFinite (holds : view.Holds p) : p.isFinite = true := by
  obtain ⟨⟨width, -⟩, height, -⟩ := view.sides
  have zero : Scalar.isFinite 0.0 = true := by decide
  exact Bool.and_eq_true_iff.mpr
    ⟨Scalar.isFinite_of_mem zero width holds.left holds.right,
      Scalar.isFinite_of_mem zero height holds.top holds.bottom⟩

theorem Holds.contains (holds : view.Holds p) (nonnegative : 0.0 ≤ margin) : view.contains margin p = true := by
  obtain ⟨⟨width, -⟩, height, -⟩ := view.sides
  have number := (Scalar.not_isNaN_of_le nonnegative).2
  have below : -margin ≤ 0.0 := Scalar.le_trans (Scalar.neg_le_neg_of_le nonnegative) (by decide)
  have grown {side : Float} (finite : Scalar.isFinite side = true) : side ≤ side + margin :=
    Scalar.le_add_of_nonneg nonnegative (Scalar.isNaN_add_of_isFinite_left finite number)
  unfold Viewport.contains
  simp only [Bool.and_eq_true, decide_eq_true_eq]
  exact ⟨⟨⟨Scalar.le_trans below holds.left, Scalar.le_trans holds.right (grown width)⟩,
    Scalar.le_trans below holds.top⟩, Scalar.le_trans holds.bottom (grown height)⟩

end Viewport

end DriftField
