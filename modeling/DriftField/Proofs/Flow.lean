import Mathlib
import DriftField.Flow
import DriftField.Proofs.Scalar.Clamp
/-!
Whatever the base field, the noise, the pointer and the settings bring about, a velocity is finite and within its
bound; and a base field that gives no finite vector at a point counts there as none.
-/

namespace DriftField

namespace Vec

theorem clamp_bounded {limit : Float} (finite : Scalar.isFinite limit = true) (v : Vec) :
    (v.clamp limit).isFinite = true ∧ (v.clamp limit).x.abs ≤ limit.abs ∧
      (v.clamp limit).y.abs ≤ limit.abs := by
  obtain ⟨horizontal, bounded⟩ := Scalar.clampSymmetric_bounded finite v.x
  obtain ⟨vertical, bounded'⟩ := Scalar.clampSymmetric_bounded finite v.y
  exact ⟨Bool.and_eq_true_iff.mpr ⟨horizontal, vertical⟩, bounded, bounded'⟩

theorem clamp_zero (limit : Float) : zero.clamp limit = zero := by
  unfold clamp zero
  rw [Scalar.clampSymmetric_zero]

end Vec

namespace Flow

variable {f : Flow}

theorem sampled_eq_zero {sample : Except SampleFault Vec} (unfit : ∀ v, sample = .ok v → v.isFinite = false) :
    sampled sample = Vec.zero := by
  cases sample with
  | error fault => rfl
  | ok v =>
      change v.finiteOrZero = Vec.zero
      unfold Vec.finiteOrZero
      rw [unfit v rfl, if_neg Bool.false_ne_true]

theorem base_eq_none {view : Viewport} {sample : Sampler} {p : Vec}
    (unfit : ∀ v, sample (f.normalize view p) = .ok v → v.isFinite = false) :
    f.base view (some sample) p = f.base view none p := by
  unfold base
  simp only
  rw [sampled_eq_zero unfit, Vec.clamp_zero]

/-- The base field acts on a velocity through the bounded base vector alone. -/
theorem velocity_congr {m : Moment} {field other : Option Sampler} {p : Vec}
    (same : f.base m.view field p = f.base m.view other p) : f.velocity m field p = f.velocity m other p := by
  unfold velocity
  rw [same]

/-- Under a finite bound every velocity is finite and within the bound; and where a base field fails or gives a vector
that is not finite, the velocity is that of no base field. -/
theorem velocity_guarded (f : Flow) (m : Moment) (p : Vec) :
    (Scalar.isFinite f.settings.bound = true → ∀ field,
      (f.velocity m field p).isFinite = true ∧ (f.velocity m field p).x.abs ≤ f.settings.bound.abs ∧
        (f.velocity m field p).y.abs ≤ f.settings.bound.abs) ∧
    ∀ sample : Sampler, (∀ v, sample (f.normalize m.view p) = .ok v → v.isFinite = false) →
      f.velocity m (some sample) p = f.velocity m none p := by
  constructor
  · intro finite field
    exact Vec.clamp_bounded finite _
  · intro sample unfit
    exact velocity_congr (base_eq_none unfit)

def unruly : Flow where
  settings := { FlowSettings.standard with
    bound := -60.0, baseBound := Scalar.nan, intensity := Scalar.infinity, drift := ⟨Scalar.infinity, Scalar.nan⟩ }
  noise := ⟨fun _ => Scalar.nan, fun _ => Scalar.infinity⟩

theorem unruly_velocity_guarded :
    let m : Moment := ⟨Scalar.infinity, some ⟨Scalar.nan, 0.0⟩, ⟨800.0, 600.0, by decide⟩⟩
    let p : Vec := ⟨-Scalar.infinity, 5.0⟩
    let field : Sampler := fun q => .ok ⟨Scalar.nan, q.y⟩
    ((unruly.velocity m (some field) p).isFinite = true ∧ (unruly.velocity m (some field) p).x.abs ≤ 60.0 ∧
      (unruly.velocity m (some field) p).y.abs ≤ 60.0) ∧
    unruly.velocity m (some field) p = unruly.velocity m none p := by
  intro m p field
  obtain ⟨bounded, same⟩ := velocity_guarded unruly m p
  refine ⟨bounded (by decide) (some field), same field fun v sampled => ?_⟩
  cases sampled
  exact Bool.and_eq_false_iff.mpr (.inl (by decide))

end Flow

end DriftField
