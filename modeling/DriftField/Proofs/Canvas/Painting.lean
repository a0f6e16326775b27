import Mathlib
import DriftField.Proofs.Canvas.Stroke
/-!
Opaque segments. They paint over each other, so each pixel shows the last segment that covers it, and which ones do is
known before anything is drawn.
-/

namespace DriftField

namespace Canvas

open Scalar

variable {c d e : Canvas}

theorem eq_of_get? (width : c.width = d.width) (height : c.height = d.height)
    (pixels : ∀ x y, c.get? x y = d.get? x y) : c = d := by
  have all : c.pixels = d.pixels := by
    apply Array.ext_getElem?
    intro i
    have sides := c.size_pixels
    have sides' := d.size_pixels
    rw [← width, ← height] at sides'
    by_cases inside : i < c.width * c.height
    · have column : i % c.width < c.width := Nat.mod_lt _ (Nat.pos_of_mul_pos_right (Nat.zero_lt_of_lt inside))
      have row : i / c.width < c.height := Nat.div_lt_of_lt_mul inside
      have here := pixels (i % c.width) (i / c.width)
      unfold get? at here
      rw [← width, ← height, if_pos ⟨column, row⟩, if_pos ⟨column, row⟩, Nat.div_add_mod'] at here
      exact here
    · rw [Array.getElem?_eq_none (by omega), Array.getElem?_eq_none (by omega)]
  cases c
  cases d
  cases width
  cases height
  cases all
  rfl

/-- Whether a line of a brush covers a pixel. -/
def covers (width height : Nat) (start stop : Vec) (side : Float) (x y : Nat) : Bool :=
  (presses width height start stop side).contains (x, y)

/-- The colour of the last segment that covers a pixel. -/
def shown (width height : Nat) (segments : List Segment) (x y : Nat) : Option Colour :=
  (segments.reverse.find? fun s => covers width height s.start s.stop s.width x y).map (·.colour)

/-- What is left of a picture that segments were painted over. -/
structure PaintedOver (c : Canvas) (segments : List Segment) (d : Canvas) : Prop where
  width : d.width = c.width
  height : d.height = c.height
  pixels (x y : Nat) : d.get? x y = (shown c.width c.height segments x y).or (c.get? x y)

theorem covers_undrawable {width height : Nat} {start stop : Vec} {side : Float}
    (undrawable : ¬ (start.isFinite ∧ stop.isFinite ∧ isFinite side ∧ 0.0 < side)) (x y : Nat) :
    covers width height start stop side x y = false := by
  have none : presses width height start stop side = [] := by
    refine if_neg fun drawable => undrawable ?_
    simp only [Bool.and_eq_true, decide_eq_true_eq] at drawable
    exact ⟨drawable.1.1.1, drawable.1.1.2, drawable.1.2, drawable.2⟩
  unfold covers
  rw [none]
  rfl

theorem painted_full (colour : Colour) : painted colour 1.0 = fun _ => colour :=
  funext fun _ => if_pos (by decide)

/-- A pixel that is painted once or more often has the colour, any other its old one. -/
theorem get?_change_full {colour : Colour} {ps : List (Nat × Nat)}
    (inside : ∀ p ∈ ps, p.1 < c.width ∧ p.2 < c.height) (x y : Nat) :
    (change (painted colour 1.0) c (ps.map (offset c.width))).get? x y =
      if ps.contains (x, y) then some colour else c.get? x y := by
  obtain ⟨width, height⟩ := change_sides (painted colour 1.0) (ps.map (offset c.width)) c
  unfold get?
  rw [width, height]
  by_cases within : x < c.width ∧ y < c.height
  · have size : y * c.width + x < c.pixels.size :=
      (offset_lt (p := (x, y)) within.1 within.2).trans_eq c.size_pixels.symm
    rw [if_pos within, if_pos within, getElem?_change, painted_full, Array.getElem?_eq_getElem size, Option.map_some]
    by_cases member : (x, y) ∈ ps
    · have hit : y * c.width + x ∈ ps.map (offset c.width) := List.mem_map_of_mem member
      obtain ⟨n, times⟩ := Nat.exists_eq_succ_of_ne_zero (List.count_pos_iff.mpr hit).ne'
      rw [if_pos (List.contains_iff_mem.mpr member), times, Function.iterate_succ_apply']
    · have missed : y * c.width + x ∉ ps.map (offset c.width) := by
        intro hit
        obtain ⟨q, other, same⟩ := List.mem_map.mp hit
        have here := offset_inj (q := (x, y)) (inside q other).1 within.1 same
        exact member (here ▸ other)
      rw [if_neg (mt List.contains_iff_mem.mp member), List.count_eq_zero.mpr missed]
      rfl
  · have outside : (x, y) ∉ ps := fun member => within (inside _ member)
    rw [if_neg within, if_neg within, if_neg (mt List.contains_iff_mem.mp outside)]

theorem exists_segment? (wide : c.width ≤ 2 ^ 53) (high : c.height ≤ 2 ^ 53) (s : Segment) :
    ∃ d, c.segment? s = some d ∧ PaintedOver c [s] d := by
  refine ⟨_, stroke?_eq_some wide high s.start s.stop s.colour s.width 1.0, ?_⟩
  obtain ⟨width, height⟩ := change_sides (painted s.colour 1.0) (places c.width c.height s.start s.stop s.width) c
  refine ⟨width, height, fun x y => ?_⟩
  unfold places
  rw [get?_change_full fun p => lt_of_mem_presses wide high]
  unfold shown covers
  rw [List.reverse_singleton, List.find?_singleton]
  cases (presses c.width c.height s.start s.stop s.width).contains (x, y) with
  | true => rfl
  | false => rfl

theorem shown_append (width height : Nat) (front back : List Segment) (x y : Nat) :
    shown width height (front ++ back) x y = (shown width height back x y).or (shown width height front x y) := by
  unfold shown
  rw [List.reverse_append, List.find?_append, Option.map_or]

namespace PaintedOver

variable {front back segments : List Segment}

theorem refl (c : Canvas) : PaintedOver c [] c := ⟨rfl, rfl, fun _ _ => rfl⟩

theorem trans (first : PaintedOver c front d) (second : PaintedOver d back e) : PaintedOver c (front ++ back) e where
  width := second.width.trans first.width
  height := second.height.trans first.height
  pixels x y := by
    rw [second.pixels, first.pixels, first.width, first.height, shown_append, Option.or_assoc]

theorem unique (first : PaintedOver c front d) (second : PaintedOver c back e)
    (same : ∀ x y, shown c.width c.height front x y = shown c.width c.height back x y) : d = e := by
  apply eq_of_get? (first.width.trans second.width.symm) (first.height.trans second.height.symm)
  intro x y
  rw [first.pixels, second.pixels, same]

end PaintedOver

theorem exists_segments? (segments : List Segment) :
    ∀ c : Canvas, c.width ≤ 2 ^ 53 → c.height ≤ 2 ^ 53 →
      ∃ d, segments.foldlM segment? c = some d ∧ PaintedOver c segments d := by
  induction segments with
  | nil => exact fun c _ _ => ⟨c, rfl, .refl c⟩
  | cons s segments ih =>
      intro c wide high
      obtain ⟨d, head, first⟩ := exists_segment? wide high s
      obtain ⟨e, tail, second⟩ := ih d (first.width.trans_le wide) (first.height.trans_le high)
      refine ⟨e, ?_, first.trans second⟩
      rw [List.foldlM_cons, head]
      exact tail

theorem shown_twice (width height : Nat) (segments : List Segment) (x y : Nat) :
    shown width height (segments ++ segments) x y = shown width height segments x y := by
  rw [shown_append, Option.or_self]

theorem shown_swap (width height : Nat) (front back : List Segment) {s t : Segment} (same : s.colour = t.colour)
    (x y : Nat) :
    shown width height (front ++ s :: t :: back) x y = shown width height (front ++ t :: s :: back) x y := by
  have pair : shown width height [s, t] x y = shown width height [t, s] x y := by
    unfold shown
    simp only [List.reverse_cons, List.reverse_nil, List.nil_append, List.singleton_append, List.find?_cons,
      List.find?_nil]
    cases covers width height s.start s.stop s.width x y <;> cases covers width height t.start t.stop t.width x y <;>
      simp [same]
  have split (s t : Segment) : s :: t :: back = [s, t] ++ back := rfl
  rw [shown_append, shown_append, split s t, split t s, shown_append, shown_append, pair]

variable (c)

/-- Segments are painted over each other. None leaves the picture; painting them once more changes nothing; and
neighbours of one colour may change places. -/
theorem segments_paint_over (segments : List Segment) (wide : c.width ≤ 2 ^ 53) (high : c.height ≤ 2 ^ 53) :
    (∃ drawn, segments.foldlM segment? c = some drawn ∧ segments.foldl segment c = drawn ∧
      PaintedOver c segments drawn ∧ segments.foldlM segment? drawn = some drawn ∧
      ∀ front s t back, segments = front ++ s :: t :: back → s.colour = t.colour →
        (front ++ t :: s :: back).foldlM segment? c = some drawn) ∧
    ∀ start stop side, ¬ (start.isFinite ∧ stop.isFinite ∧ isFinite side ∧ 0.0 < side) →
      ∀ x y, covers c.width c.height start stop side x y = false := by
  refine ⟨?_, fun start stop side => covers_undrawable⟩
  obtain ⟨drawn, run, painted⟩ := exists_segments? segments c wide high
  refine ⟨drawn, run, foldl_of_foldlM (fun _ _ _ => segment_of_segment?) segments c drawn run, painted, ?_, ?_⟩
  · obtain ⟨again, rerun, repainted⟩ := exists_segments? segments drawn (painted.width.trans_le wide)
      (painted.height.trans_le high)
    rw [rerun, (painted.trans repainted).unique painted (shown_twice _ _ segments)]
  · intro front s t back split same
    subst split
    obtain ⟨other, run', painted'⟩ := exists_segments? (front ++ t :: s :: back) c wide high
    rw [run', painted.unique painted' (shown_swap _ _ front back same)]

def blank : Canvas := ⟨3, 3, Array.replicate 9 Colour.background, rfl⟩

def across : Segment := ⟨⟨0.5, 1.5⟩, ⟨2.5, 1.5⟩, ⟨1.0, 0.0, 0.0⟩, 1.0⟩

def down : Segment := ⟨⟨1.5, 0.5⟩, ⟨1.5, 2.5⟩, ⟨0.0, 0.0, 1.0⟩, 1.0⟩

def stray : Segment := ⟨⟨0.5, 0.5⟩, ⟨nan, 0.5⟩, Colour.white, 1.0⟩

/-- Where two segments cross, the later one shows. -/
theorem crossing_paints_over :
    (∃ drawn, [across, down, stray].foldlM segment? blank = some drawn ∧ drawn.get? 1 1 = some down.colour ∧
      drawn.get? 0 1 = some across.colour ∧ drawn.get? 1 0 = some down.colour ∧
      drawn.get? 0 0 = some Colour.background) ∧
    ∃ drawn, [down, across, stray].foldlM segment? blank = some drawn ∧ drawn.get? 1 1 = some across.colour ∧
      drawn.get? 0 1 = some across.colour ∧ drawn.get? 1 0 = some down.colour := by
  have row : ∀ x < 3, covers 3 3 across.start across.stop across.width x 1 = true := by decide +kernel
  have above : ∀ x < 3, covers 3 3 across.start across.stop across.width x 0 = false := by decide +kernel
  have column : ∀ y < 3, covers 3 3 down.start down.stop down.width 1 y = true := by decide +kernel
  have beside : ∀ y < 3, covers 3 3 down.start down.stop down.width 0 y = false := by decide +kernel
  have lost (x y : Nat) : covers 3 3 stray.start stray.stop stray.width x y = false :=
    covers_undrawable (fun drawable => absurd drawable.2.1 (by decide +kernel)) x y
  obtain ⟨⟨drawn, run, -, painted, -⟩, -⟩ := segments_paint_over blank [across, down, stray] (by decide) (by decide)
  obtain ⟨⟨drawn', run', -, painted', -⟩, -⟩ := segments_paint_over blank [down, across, stray] (by decide) (by decide)
  refine ⟨⟨drawn, run, ?_, ?_, ?_, ?_⟩, drawn', run', ?_, ?_, ?_⟩
  · simp [painted.pixels, shown, blank, lost, column]
  · simp [painted.pixels, shown, blank, lost, beside, row]
  · simp [painted.pixels, shown, blank, lost, column]
  · rw [painted.pixels]
    simp [shown, blank, lost, beside, above, get?]
  · simp [painted'.pixels, shown, blank, lost, row]
  · simp [painted'.pixels, shown, blank, lost, row]
  · simp [painted'.pixels, shown, blank, lost, above, column]

end Canvas

end DriftField
