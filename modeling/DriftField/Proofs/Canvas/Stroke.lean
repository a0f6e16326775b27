import Mathlib
import DriftField.Canvas.Access
import DriftField.Proofs.Scalar.Whole
/-!
Strokes pixel by pixel. Where a stroke presses the brush down depends on the line and on the sides of the picture alone;
what it leaves at a pixel depends on what was there and on how often it presses there. A picture of up to `2 ^ 53`
columns and rows holds every pixel that is pressed.
-/

namespace DriftField

namespace Canvas

open Scalar

variable {c d : Canvas} {f : Colour → Colour}

/-! What the brush covers. -/

theorem Run.mem_toList {r : Run} {i : Nat} : i ∈ r.toList ↔ r.start ≤ i ∧ i < r.stop := by
  unfold Run.toList
  rw [List.mem_range'_1]
  omega

/-- A run ends in the picture: its upper end is cut to the limit before it becomes a word. -/
theorem Run.stop_around_le (center half : Float) {limit : Nat} (short : limit ≤ 2 ^ 53) :
    (Run.around center half limit).stop ≤ limit := by
  obtain ⟨plain, whole⟩ := unsigned_whole short
  have zero : (0.0 : Float).isNaN = false := by decide
  have nonnegative := le_greater zero (floor (center - half))
  have bounded := lesser_le plain.isNaN (ceiling (center + half))
  unfold Run.around
  dsimp only
  split
  · exact Nat.zero_le limit
  · next order =>
      have above := (lt_or_le (not_isNaN_of_le nonnegative).2 (not_isNaN_of_le bounded).1).resolve_right order
      have least := le_trans nonnegative (le_of_lt above)
      have finite := isFinite_of_mem (by decide) plain.isFinite least bounded
      calc
        (lesser (ceiling (center + half)) limit.toUInt64.toFloat).toUInt64.toNat
            ≤ limit.toUInt64.toFloat.toUInt64.toNat := toNat_toUInt64_mono (unsigned least finite) plain bounded
        _ = limit := whole

def footprint (width height : Nat) (half : Float) (center : Vec) : List (Nat × Nat) :=
  (Run.around center.y half height).toList.flatMap fun y =>
    (Run.around center.x half width).toList.map fun x => (x, y)

/-- The pixels on which a stroke presses the brush, in order and as often as it does. -/
def presses (width height : Nat) (start stop : Vec) (side : Float) : List (Nat × Nat) :=
  if start.isFinite && stop.isFinite && Scalar.isFinite side && side > 0.0 then
    (strokeCenters start stop).flatMap (footprint width height (brush side))
  else []

def offset (width : Nat) (p : Nat × Nat) : Nat := p.2 * width + p.1

/-- The places of the pixels that a stroke presses. -/
def places (width height : Nat) (start stop : Vec) (side : Float) : List Nat :=
  (presses width height start stop side).map (offset width)

theorem lt_of_mem_presses {width height : Nat} (wide : width ≤ 2 ^ 53) (high : height ≤ 2 ^ 53) {start stop : Vec}
    {side : Float} {p : Nat × Nat} (member : p ∈ presses width height start stop side) :
    p.1 < width ∧ p.2 < height := by
  unfold presses at member
  split at member
  · obtain ⟨center, -, member⟩ := List.mem_flatMap.mp member
    obtain ⟨y, row, member⟩ := List.mem_flatMap.mp member
    obtain ⟨x, column, rfl⟩ := List.mem_map.mp member
    exact ⟨(Run.mem_toList.mp column).2.trans_le (Run.stop_around_le _ _ wide),
      (Run.mem_toList.mp row).2.trans_le (Run.stop_around_le _ _ high)⟩
  · cases member

theorem offset_lt {width height : Nat} {p : Nat × Nat} (column : p.1 < width) (row : p.2 < height) :
    offset width p < width * height :=
  calc
    p.2 * width + p.1 < p.2 * width + width := Nat.add_lt_add_left column _
    _ = (p.2 + 1) * width := (Nat.succ_mul _ _).symm
    _ ≤ height * width := Nat.mul_le_mul_right _ row
    _ = width * height := Nat.mul_comm _ _

theorem offset_inj {width : Nat} {p q : Nat × Nat} (left : p.1 < width) (right : q.1 < width)
    (same : offset width p = offset width q) : p = q := by
  have column : p.1 = q.1 := by
    have remainder := congrArg (· % width) same
    simp only [offset, Nat.mul_add_mod_self_right, Nat.mod_eq_of_lt left, Nat.mod_eq_of_lt right] at remainder
    exact remainder
  have row : p.2 = q.2 := by
    unfold offset at same
    rw [column] at same
    exact Nat.eq_of_mul_eq_mul_right (by omega) (Nat.add_right_cancel same)
  exact Prod.ext column row

/-! Changes at one place after another. -/

def change (f : Colour → Colour) (c : Canvas) (places : List Nat) : Canvas := places.foldl (fun c i => c.modify i f) c

theorem change_sides (f : Colour → Colour) (places : List Nat) :
    ∀ c, (change f c places).width = c.width ∧ (change f c places).height = c.height := by
  induction places with
  | nil => exact fun c => ⟨rfl, rfl⟩
  | cons i places ih => exact fun c => ih (c.modify i f)

theorem getElem?_change (f : Colour → Colour) (places : List Nat) (i : Nat) :
    ∀ c, (change f c places).pixels[i]? = c.pixels[i]?.map f^[places.count i] := by
  induction places with
  | nil =>
      intro c
      exact (Option.map_id' (x := c.pixels[i]?)).symm
  | cons j places ih =>
      intro c
      have step : (c.modify j f).pixels[i]? = if j = i then c.pixels[i]?.map f else c.pixels[i]? :=
        Array.getElem?_modify
      refine (ih (c.modify j f)).trans ?_
      rw [step, List.count_cons]
      by_cases here : j = i
      · rw [if_pos here, if_pos (beq_iff_eq.mpr here), Option.map_map, ← Function.iterate_succ]
      · rw [if_neg here, if_neg (mt beq_iff_eq.mp here), Nat.add_zero]

def change? (f : Colour → Colour) (c : Canvas) (places : List Nat) : Option Canvas :=
  places.foldlM (fun c i => c.access i f) c

theorem change?_append (f : Colour → Colour) (c : Canvas) (front back : List Nat) :
    change? f c (front ++ back) = (change? f c front).bind fun d => change? f d back := List.foldlM_append

theorem change?_eq (f : Colour → Colour) (places : List Nat) :
    ∀ c, change? f c places = if ∀ i ∈ places, i < c.pixels.size then some (change f c places) else none := by
  induction places with
  | nil => exact fun c => (if_pos fun i member => absurd member List.not_mem_nil).symm
  | cons j places ih =>
      intro c
      have size : (c.modify j f).pixels.size = c.pixels.size := Array.size_modify
      have tail := ih (c.modify j f)
      rw [size] at tail
      simp only [List.forall_mem_cons]
      by_cases inside : j < c.pixels.size
      · have head : c.access j f = some (c.modify j f) := if_pos inside
        calc
          change? f c (j :: places) = (c.access j f).bind fun d => change? f d places := List.foldlM_cons
          _ = change? f (c.modify j f) places := by rw [head, Option.bind_some]
          _ = _ := by
            rw [tail]
            simp only [inside, true_and]
            rfl
      · have head : c.access j f = none := if_neg inside
        calc
          change? f c (j :: places) = (c.access j f).bind fun d => change? f d places := List.foldlM_cons
          _ = none := by rw [head, Option.bind_none]
          _ = _ := (if_neg fun all => inside all.1).symm

/-! Strokes as such changes. -/

variable {half : Float} {colour : Colour} {alpha : Float}

theorem foldlM_flatMap {α β γ : Type} (g : α → List β) (h : γ → β → Option γ) (as : List α) :
    ∀ c, (as.flatMap g).foldlM h c = as.foldlM (fun c a => (g a).foldlM h c) c := by
  induction as with
  | nil => exact fun c => rfl
  | cons a as ih =>
      intro c
      rw [List.flatMap_cons, List.foldlM_append, List.foldlM_cons]
      exact Option.bind_congr fun d _ => ih d

theorem stamp?_eq (c : Canvas) (half : Float) (colour : Colour) (alpha : Float) (center : Vec) :
    c.stamp? half colour alpha center =
      change? (painted colour alpha) c ((footprint c.width c.height half center).map (offset c.width)) := by
  unfold stamp? change? footprint
  rw [List.foldlM_map, foldlM_flatMap]
  simp only [List.foldlM_map]
  rfl

theorem stamps?_eq (centers : List Vec) (half : Float) (colour : Colour) (alpha : Float) :
    ∀ c, centers.foldlM (fun c p => c.stamp? half colour alpha p) c =
      change? (painted colour alpha) c ((centers.flatMap (footprint c.width c.height half)).map (offset c.width)) := by
  induction centers with
  | nil => exact fun c => rfl
  | cons center centers ih =>
      intro c
      rw [List.foldlM_cons, stamp?_eq, List.flatMap_cons, List.map_append, change?_append]
      refine Option.bind_congr fun d drawn => ?_
      rw [change?_eq] at drawn
      obtain ⟨-, drawn⟩ := Option.ite_none_right_eq_some.mp drawn
      cases drawn
      obtain ⟨width, height⟩ := change_sides (painted colour alpha)
        ((footprint c.width c.height half center).map (offset c.width)) c
      rw [ih, width, height]

/-- A stroke changes the pixels that it presses, one press after another. -/
theorem stroke?_eq (c : Canvas) (start stop : Vec) (colour : Colour) (side alpha : Float) :
    c.stroke? start stop colour side alpha =
      change? (painted colour alpha) c (places c.width c.height start stop side) := by
  unfold stroke? places presses
  split
  · exact stamps?_eq _ _ _ _ c
  · rfl

theorem stroke?_eq_some (wide : c.width ≤ 2 ^ 53) (high : c.height ≤ 2 ^ 53) (start stop : Vec) (colour : Colour)
    (side alpha : Float) :
    c.stroke? start stop colour side alpha =
      some (change (painted colour alpha) c (places c.width c.height start stop side)) := by
  rw [stroke?_eq, change?_eq]
  apply if_pos
  intro i member
  obtain ⟨p, pressed, rfl⟩ := List.mem_map.mp member
  obtain ⟨column, row⟩ := lt_of_mem_presses wide high pressed
  exact (offset_lt column row).trans_eq c.size_pixels.symm

/-! A stroke that leaves no picture is the stroke without a look at the places. -/

theorem foldl_of_foldlM {α β : Type} {g? : β → α → Option β} {g : β → α → β}
    (agree : ∀ b a b', g? b a = some b' → g b a = b') (as : List α) :
    ∀ b b', as.foldlM g? b = some b' → as.foldl g b = b' := by
  induction as with
  | nil => exact fun b b' end_ => Option.some.inj end_
  | cons a as ih =>
      intro b b' run
      rw [List.foldlM_cons] at run
      obtain ⟨next, head, tail⟩ := Option.bind_eq_some_iff.mp run
      rw [List.foldl_cons, agree b a next head]
      exact ih next b' tail

theorem modify_of_access {i : Nat} (seen : c.access i f = some d) : c.modify i f = d :=
  (Option.ite_none_right_eq_some.mp seen).2 |> Option.some.inj

theorem stamp_of_stamp? {center : Vec} (seen : c.stamp? half colour alpha center = some d) :
    c.stamp half colour alpha center = d := by
  unfold stamp
  rw [Run.fold_eq_foldl_toList]
  refine foldl_of_foldlM (fun c y next row => ?_) _ c d seen
  rw [Run.fold_eq_foldl_toList]
  exact foldl_of_foldlM (fun _ _ _ => modify_of_access) _ c next row

theorem stroke_of_stroke? {start stop : Vec} {side : Float} (seen : c.stroke? start stop colour side alpha = some d) :
    c.stroke start stop colour side alpha = d := by
  unfold stroke? at seen
  unfold stroke
  split at seen
  · next drawable =>
      rw [if_pos drawable]
      exact foldl_of_foldlM (fun _ _ _ => stamp_of_stamp?) _ c d seen
  · next undrawable =>
      rw [if_neg undrawable]
      exact Option.some.inj seen

theorem segment_of_segment? {s : Segment} (seen : c.segment? s = some d) : c.segment s = d := stroke_of_stroke? seen

end Canvas

end DriftField
