import Mathlib
import DriftField.Proofs.Canvas.Stroke
/-!
Strokes that let through what is under them. Every press of the brush blends, so a pixel is blended as often as the
brush presses there, and only a stroke that presses no pixel twice leaves its own opacity.
-/

namespace DriftField

namespace Canvas

open Scalar

variable {c d : Canvas} {colour : Colour} {alpha : Float}

theorem painted_translucent (faint : alpha < 1.0) (colour : Colour) :
    painted colour alpha = fun old => old.blend colour alpha :=
  funext fun _ => if_neg fun full => not_lt_of_le full faint

/-- Each pixel is as it was or was blended a single time. -/
def BlendedOnce (c : Canvas) (colour : Colour) (alpha : Float) (d : Canvas) : Prop :=
  ∀ i : Nat, d.pixels[i]? = c.pixels[i]? ∨ d.pixels[i]? = c.pixels[i]?.map fun old : Colour => old.blend colour alpha

theorem blendedOnce_change (faint : alpha < 1.0) {places : List Nat} (once : places.Nodup) :
    BlendedOnce c colour alpha (change (painted colour alpha) c places) := by
  intro i
  rw [getElem?_change, painted_translucent faint]
  rcases Nat.le_one_iff_eq_zero_or_eq_one.mp (List.nodup_iff_count_le_one.mp once i) with never | single
  · left
    rw [never, Function.iterate_zero, Option.map_id_apply]
  · right
    rw [single, Function.iterate_one]

/-! White of almost full opacity over black: from the second time on nothing is left of the black. -/

def black : Colour := ⟨0.0, 0.0, 0.0⟩

def dense : Float := 0.9999999999999999

theorem blend_dense_ne : black.blend Colour.white dense ≠ Colour.white := by
  intro same
  exact absurd (congrArg Colour.red same) (by decide +kernel)

theorem blend_dense_twice : (black.blend Colour.white dense).blend Colour.white dense = Colour.white := by
  have component : ((black.blend Colour.white dense).blend Colour.white dense).red = 1.0 :=
    ext_toBits (by decide +kernel)
  exact congrArg (fun v => Colour.mk v v v) component

theorem iterate_blend_dense (n : Nat) : (fun old => old.blend Colour.white dense)^[n + 2] black = Colour.white := by
  have fixed : Colour.white.blend Colour.white dense = Colour.white := by rfl
  rw [Function.iterate_add_apply, Function.iterate_succ_apply, Function.iterate_one, blend_dense_twice,
    Function.iterate_fixed fixed]

def night (width height : Nat) : Canvas :=
  ⟨width, height, Array.replicate (width * height) black, Array.size_replicate⟩

theorem nodup_of_blendedOnce {width height : Nat} {places : List Nat} (inside : ∀ i ∈ places, i < width * height)
    (once : BlendedOnce (night width height) Colour.white dense
      (change (painted Colour.white dense) (night width height) places)) : places.Nodup := by
  apply List.nodup_iff_count_le_one.mpr
  intro i
  by_contra often
  obtain ⟨n, count⟩ : ∃ n, places.count i = n + 2 := ⟨places.count i - 2, by omega⟩
  have pressed : i < width * height := inside i (List.count_pos_iff.mp (by omega))
  have old : (night width height).pixels[i]? = some black := by
    exact Array.getElem?_replicate.trans (if_pos pressed)
  have result := once i
  rw [getElem?_change, painted_translucent (by decide), count, old, Option.map_some, iterate_blend_dense,
    Option.map_some] at result
  rcases result with kept | single
  · exact absurd (congrArg Colour.red (Option.some.inj kept)) (by decide +kernel)
  · exact blend_dense_ne (Option.some.inj single).symm

theorem stroke?_eq_blended (wide : c.width ≤ 2 ^ 53) (high : c.height ≤ 2 ^ 53) (start stop : Vec) (colour : Colour)
    (side : Float) (faint : alpha < 1.0) :
    ∃ d, c.stroke? start stop colour side alpha = some d ∧
      ∀ i : Nat, d.pixels[i]? = c.pixels[i]?.map
        (fun old => old.blend colour alpha)^[(places c.width c.height start stop side).count i] := by
  refine ⟨_, stroke?_eq_some wide high start stop colour side alpha, fun i => ?_⟩
  rw [getElem?_change, painted_translucent faint]

/-- A stroke blends a pixel as often as it presses the brush there. So it blends no pixel more than once, in whatever
picture of given sides and whatever opacity below one, just when it presses none twice, and none that is not there. -/
theorem stroke_blends_once_iff (width height : Nat) (start stop : Vec) (side : Float) :
    (∀ c : Canvas, c.width = width → c.height = height → width ≤ 2 ^ 53 → height ≤ 2 ^ 53 →
      ∀ colour alpha, alpha < 1.0 → ∃ d, c.stroke? start stop colour side alpha = some d ∧
        ∀ i : Nat, d.pixels[i]? = c.pixels[i]?.map
          (fun old => old.blend colour alpha)^[(places width height start stop side).count i]) ∧
    ((∀ c : Canvas, c.width = width → c.height = height → ∀ colour alpha, 0.0 < alpha → alpha < 1.0 →
        ∃ d, c.stroke? start stop colour side alpha = some d ∧ BlendedOnce c colour alpha d) ↔
      (places width height start stop side).Nodup ∧
        ∀ i ∈ places width height start stop side, i < width * height) := by
  refine ⟨?_, ?_, ?_⟩
  · intro c sameWidth sameHeight wide high colour alpha faint
    subst sameWidth sameHeight
    exact stroke?_eq_blended wide high start stop colour side faint
  · intro all
    -- one picture and one opacity tell: white of almost full opacity over black
    obtain ⟨d, run, once⟩ := all (night width height) rfl rfl Colour.white dense (by decide) (by decide)
    rw [stroke?_eq, change?_eq] at run
    obtain ⟨inside, drawn⟩ := Option.ite_none_right_eq_some.mp run
    have size : (night width height).pixels.size = width * height := Array.size_replicate
    rw [size] at inside
    cases drawn
    exact ⟨nodup_of_blendedOnce inside once, inside⟩
  · intro ⟨once, inside⟩ c sameWidth sameHeight colour alpha _ faint
    subst sameWidth sameHeight
    refine ⟨_, ?_, blendedOnce_change faint once⟩
    rw [stroke?_eq, change?_eq]
    apply if_pos
    rw [c.size_pixels]
    exact inside

def tile : Canvas := ⟨1, 1, #[Colour.background], rfl⟩

/-- A stroke of half a pixel's length presses twice on the pixel where it starts. -/
theorem short_stroke_blends_twice :
    ∃ d, tile.stroke? ⟨0.5, 0.5⟩ ⟨1.0, 0.5⟩ Colour.white 1.0 0.5 = some d ∧
      d.pixels[0]? = some ((Colour.background.blend Colour.white 0.5).blend Colour.white 0.5) ∧
      ¬ BlendedOnce tile Colour.white 0.5 d := by
  have twice : places 1 1 ⟨0.5, 0.5⟩ ⟨1.0, 0.5⟩ 1.0 = [0, 0] := by decide +kernel
  have run : tile.stroke? ⟨0.5, 0.5⟩ ⟨1.0, 0.5⟩ Colour.white 1.0 0.5 =
      change? (painted Colour.white 0.5) tile (places 1 1 ⟨0.5, 0.5⟩ ⟨1.0, 0.5⟩ 1.0) := stroke?_eq _ _ _ _ _ _
  have pixel := getElem?_change (painted Colour.white 0.5) [0, 0] 0 tile
  rw [painted_translucent (by decide)] at pixel
  rw [twice] at run
  refine ⟨_, run, pixel, fun once => ?_⟩
  rcases (once 0) with kept | single
  · exact absurd (congrArg Colour.red (Option.some.inj (pixel.symm.trans kept))) (by decide +kernel)
  · exact absurd (congrArg Colour.red (Option.some.inj (pixel.symm.trans single))) (by decide +kernel)

/-! A stroke that does not move is one press, and one press is a rectangle. -/

theorem nodup_footprint (width height : Nat) (half : Float) (center : Vec) :
    (footprint width height half center).Nodup := by
  apply List.nodup_flatMap.mpr
  refine ⟨fun y _ => List.Nodup.map (fun x x' same => (Prod.mk.inj same).1) (List.nodup_range' _), ?_⟩
  refine List.Pairwise.imp (fun {y y'} apart => ?_) (List.nodup_range' _)
  intro p left right
  obtain ⟨x, -, rfl⟩ := List.mem_map.mp left
  obtain ⟨x', -, same⟩ := List.mem_map.mp right
  exact apart (Prod.mk.inj same).2.symm

theorem still_stroke_blends_once (wide : c.width ≤ 2 ^ 53) (high : c.height ≤ 2 ^ 53) {start stop : Vec}
    (still : stepCount (stop - start) = 0) (colour : Colour) (side : Float) (faint : alpha < 1.0) :
    ∃ d, c.stroke? start stop colour side alpha = some d ∧ BlendedOnce c colour alpha d := by
  refine ⟨_, stroke?_eq_some wide high start stop colour side alpha, blendedOnce_change faint ?_⟩
  have inside {p : Nat × Nat} : p ∈ presses c.width c.height start stop side → p.1 < c.width ∧ p.2 < c.height :=
    lt_of_mem_presses wide high
  refine List.Nodup.map_on (fun p left q right => offset_inj (inside left).1 (inside right).1) ?_
  have single : strokeCenters start stop = [start + (stop - start).scale (progress 0 0)] := by
    unfold strokeCenters
    dsimp only
    rw [still]
    rfl
  unfold presses
  split
  · rw [single, List.flatMap_singleton]
    exact nodup_footprint _ _ _ _
  · exact List.nodup_nil

end Canvas

end DriftField
