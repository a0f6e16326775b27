import Mathlib
import DriftField.Flow
import DriftField.Noise.Field
import DriftField.Proofs.Scalar.Remainder
/-!
Noise is asked for only in the range in which it is sampled. A coordinate in range stays as it is; one outside is moved
into the range by a whole multiple of it, and nothing is rounded. So it makes no difference what noise would be
elsewhere.
-/

namespace DriftField

namespace Noise

open Scalar

def InRange (c : Float) : Prop := isFinite c = true ∧ c.abs < 1000000000.0

/-- The points at which noise is sampled: every coordinate is in range. -/
def Within {P : Type} [Coordinates P] (p : P) : Prop := Coordinates.fold (fun all c => all ∧ InRange c) True p

/-- Noises that are the same wherever noise is sampled. -/
structure Agree (noise noise' : Source) : Prop where
  plane : ∀ q, Within q → noise.plane q = noise'.plane q
  space : ∀ q, Within q → noise.space q = noise'.space q

variable {c : Float}

theorem unsigned_range : Unsigned range := unsigned (by decide) (by decide)

theorem magnitude_range : magnitude range = 1000000000 * 2 ^ 1074 := by decide +kernel

theorem magnitude_range_pos : 0 < magnitude range := by
  rw [magnitude_range]
  positivity

theorem inRange_iff (finite : isFinite c = true) : InRange c ↔ magnitude c < magnitude range := by
  change _ ∧ c.abs < range ↔ _
  rw [lt_iff_magnitude (unsigned_abs finite) unsigned_range, magnitude_abs (not_isNaN_of_isFinite finite)]
  exact and_iff_right finite

theorem coordinate_of_not_isFinite (infinite : isFinite c = false) : coordinate c = 0.0 := by
  unfold coordinate
  rw [infinite]
  rfl

theorem coordinate_of_inRange (inside : InRange c) : coordinate c = c := by
  unfold coordinate range
  rw [inside.1, if_neg (by decide), if_pos inside.2]

theorem coordinate_of_not_inRange (finite : isFinite c = true) (outside : ¬ InRange c) :
    Unsigned (coordinate c) ∧ weight (coordinate c).toModel.unpack = weight c.toModel.unpack % magnitude range := by
  have order := not_lt.mp (mt (inRange_iff finite).mpr outside)
  obtain ⟨finite', exact⟩ := wrap_exact finite unsigned_range.isFinite magnitude_range_pos order
  have wrapped : coordinate c = wrap c range := by
    unfold coordinate range
    rw [finite, if_neg (by decide), if_neg fun small => outside ⟨finite, small⟩]
  rw [wrapped]
  rw [unsigned_range.weight_eq] at exact
  refine ⟨unsigned ?_ finite', exact⟩
  have number := not_isNaN_of_isFinite finite'
  rw [le_iff_weight (by decide) number, isZero_zero.weight_eq, exact]
  exact Int.emod_nonneg _ (Int.natCast_pos.mpr magnitude_range_pos).ne'

theorem inRange_coordinate (c : Float) : InRange (coordinate c) := by
  cases finite : isFinite c with
  | false =>
      rw [coordinate_of_not_isFinite finite]
      exact ⟨by decide, by decide⟩
  | true =>
      by_cases inside : InRange c
      · rw [coordinate_of_inRange inside]
        exact inside
      · obtain ⟨plain, exact⟩ := coordinate_of_not_inRange finite inside
        rw [inRange_iff plain.isFinite, ← Int.ofNat_lt, ← plain.weight_eq, exact]
        exact Int.emod_lt_of_pos _ (Int.natCast_pos.mpr magnitude_range_pos)

theorem coordinate_mem (finite : isFinite c = true) (outside : ¬ InRange c) :
    0.0 ≤ coordinate c ∧ coordinate c < range := by
  obtain ⟨plain, -⟩ := coordinate_of_not_inRange finite outside
  refine ⟨plain.nonneg, ?_⟩
  rw [lt_iff_magnitude plain unsigned_range]
  exact (inRange_iff plain.isFinite).mp (inRange_coordinate c)

theorem value_range : value range = 1000000000 := by
  rw [unsigned_range.value_eq, magnitude_range, Nat.cast_mul, Nat.cast_pow, Nat.cast_two]
  exact mul_div_cancel_right₀ _ (pow_ne_zero _ two_ne_zero)

theorem exists_multiple (finite : isFinite c = true) (outside : ¬ InRange c) :
    ∃ k : ℤ, value c - value (coordinate c) = k * 1000000000 := by
  obtain ⟨-, exact⟩ := coordinate_of_not_inRange finite outside
  have moved : weight c.toModel.unpack - weight (coordinate c).toModel.unpack =
      weight c.toModel.unpack / magnitude range * magnitude range := by
    rw [exact, Int.emod_def]
    ring
  refine ⟨weight c.toModel.unpack / magnitude range, ?_⟩
  rw [← value_range, unsigned_range.value_eq]
  unfold value
  rw [← sub_div, ← Int.cast_sub, moved, Int.cast_mul, Int.cast_natCast, mul_div_assoc]

theorem within_planePoint (x y : Float) : Within (planePoint x y) :=
  ⟨⟨trivial, inRange_coordinate x⟩, inRange_coordinate y⟩

theorem within_spacePoint (x y z : Float) : Within (spacePoint x y z) :=
  ⟨⟨⟨trivial, inRange_coordinate x⟩, inRange_coordinate y⟩, inRange_coordinate z⟩

theorem octaveSum_congr {noise noise' : Vec → Float} (agree : ∀ q, Within q → noise q = noise' q) (p : Vec)
    (octaves : Nat) (weight k sum : Float) :
    octaveSum noise p octaves weight k sum = octaveSum noise' p octaves weight k sum := by
  induction octaves generalizing weight k sum with
  | zero => rfl
  | succ octaves induction =>
      unfold octaveSum
      rw [agree _ (within_planePoint _ _)]
      exact induction _ _ _

end Noise

namespace Flow

open Noise

variable {s : FlowSettings} {noise noise' : Source}

theorem noiseInPlane_congr (agree : Agree noise noise') (x y : Float) :
    noiseInPlane ⟨s, noise⟩ x y = noiseInPlane ⟨s, noise'⟩ x y := agree.plane _ (within_planePoint x y)

theorem noiseInSpace_congr (agree : Agree noise noise') (x y z : Float) :
    noiseInSpace ⟨s, noise⟩ x y z = noiseInSpace ⟨s, noise'⟩ x y z := agree.space _ (within_spacePoint x y z)

theorem addOctave_congr (agree : Agree noise noise') : addOctave ⟨s, noise⟩ = addOctave ⟨s, noise'⟩ := by
  funext seconds p sum o
  unfold addOctave
  simp only [noiseInSpace_congr agree]

theorem pointerForce_congr (agree : Agree noise noise') : pointerForce ⟨s, noise⟩ = pointerForce ⟨s, noise'⟩ := by
  funext m p
  unfold pointerForce
  simp only [noiseInPlane_congr agree, noiseInSpace_congr agree]

theorem perturbation_congr (agree : Agree noise noise') (m : Moment) (p : Vec) :
    perturbation ⟨s, noise⟩ m p = perturbation ⟨s, noise'⟩ m p := by
  unfold perturbation addPointerForce
  rw [addOctave_congr agree, pointerForce_congr agree]
  rfl

theorem velocity_congr_noise (agree : Agree noise noise') (m : Moment) (field : Option Sampler) (p : Vec) :
    velocity ⟨s, noise⟩ m field p = velocity ⟨s, noise'⟩ m field p := by
  unfold velocity
  rw [perturbation_congr agree]
  rfl

end Flow

namespace Noise

open Scalar

/-- Whatever number a coordinate is, or none, noise is sampled in range: where it is when it is in range, from zero on
and a whole multiple of the range away when it is another finite number, and else at zero. All points at which a noise
field and the noise of a flow are sampled are made of such coordinates, so neither depends on what the noise is anywhere
else, at any place and time and under any settings. -/
theorem sampled_in_range :
    (∀ c, InRange (coordinate c) ∧ (InRange c → coordinate c = c) ∧
      (isFinite c = true → ¬ c.abs < 1000000000.0 → 0.0 ≤ coordinate c ∧ coordinate c < 1000000000.0 ∧
        ∃ k : ℤ, value c - value (coordinate c) = k * 1000000000) ∧
      (isFinite c = false → coordinate c = 0.0)) ∧
    (∀ (f : NoiseField) (noise : Vec → Float), (∀ q, Within q → noise q = gradientNoise f.table q) →
      ∀ p, octaveSum noise p f.octaves 1.0 1.0 0.0 = f.scalar p) ∧
    (∀ (f : Flow) x y z, Within (planePoint x y) ∧ f.noiseInPlane x y = f.noise.plane (planePoint x y) ∧
      Within (spacePoint x y z) ∧ f.noiseInSpace x y z = f.noise.space (spacePoint x y z)) ∧
    ∀ (f : Flow) (noise : Source), Agree noise f.noise → ∀ m p,
      { f with noise }.perturbation m p = f.perturbation m p ∧
        ∀ field, { f with noise }.velocity m field p = f.velocity m field p := by
  refine ⟨fun c => ⟨inRange_coordinate c, coordinate_of_inRange, fun finite large => ?_, coordinate_of_not_isFinite⟩,
    fun f noise agree p => octaveSum_congr agree p f.octaves _ _ _, fun f x y z => ?_, fun f noise agree m p => ?_⟩
  · have outside : ¬ InRange c := fun inside => large inside.2
    obtain ⟨above, below⟩ := coordinate_mem finite outside
    exact ⟨above, below, exists_multiple finite outside⟩
  · exact ⟨within_planePoint x y, rfl, within_spacePoint x y z, rfl⟩
  · exact ⟨Flow.perturbation_congr agree m p, fun field => Flow.velocity_congr_noise agree m field p⟩

def Source.cut (noise : Source) : Source where
  plane q := if q.x.abs < range ∧ q.y.abs < range then noise.plane q else nan
  space q := if q.x.abs < range ∧ q.y.abs < range ∧ q.z.abs < range then noise.space q else nan

theorem agree_cut (noise : Source) : Agree noise.cut noise where
  plane := fun _ ⟨⟨_, x⟩, y⟩ => if_pos ⟨x.2, y.2⟩
  space := fun _ ⟨⟨⟨_, x⟩, y⟩, z⟩ => if_pos ⟨x.2, y.2, z.2⟩

theorem far_sampled_in_range :
    let flow : Flow := .ofSeed .standard 7
    let m : Moment := ⟨infinity, some ⟨1e300, nan⟩, ⟨800.0, 600.0, by decide⟩⟩
    InRange (coordinate (-1.5e9)) ∧ 0.0 ≤ coordinate (-1.5e9) ∧
      (∃ k : ℤ, value (-1.5e9) - value (coordinate (-1.5e9)) = k * 1000000000) ∧
      coordinate nan = 0.0 ∧ coordinate (-0.0) = -0.0 ∧
      { flow with noise := flow.noise.cut }.velocity m none ⟨-1e308, 5e-324⟩ =
        flow.velocity m none ⟨-1e308, 5e-324⟩ := by
  intro flow m
  obtain ⟨coordinates, -, -, flows⟩ := sampled_in_range
  obtain ⟨inside, -, moved, -⟩ := coordinates (-1.5e9)
  obtain ⟨above, -, multiple⟩ := moved (by decide) (by decide)
  refine ⟨inside, above, multiple, (coordinates nan).2.2.2 (by decide),
    (coordinates (-0.0)).2.1 ⟨by decide, by decide⟩, ?_⟩
  exact (flows flow flow.noise.cut (agree_cut _) m _).2 none

end Noise

end DriftField
