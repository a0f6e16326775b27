import Mathlib
import DriftField.Proofs.Scalar.Sum
import DriftField.Proofs.Swarm.Run
/-!
Trails over whole runs: they have the capacity of the current settings, hold their samples in the order of time, and
lose every sample that is too old in the tick in which it becomes so.
-/

namespace DriftField

namespace Trail

/-- A trail at a time: it is not too long, and its samples are in the order of the times, all past, at which they
were taken. -/
structure Orderly (now : Float) (t : Trail) : Prop where
  short : t.length ≤ t.capacity
  ordered : t.samples.Pairwise (·.born ≤ ·.born)
  past : ∀ sample ∈ t.samples, 0.0 ≤ sample.born ∧ sample.born ≤ now

variable {t : Trail} {now : Float}

theorem orderly_empty (now : Float) (capacity : Nat) : Orderly now (empty capacity) :=
  ⟨Nat.zero_le _, .nil, nofun⟩

theorem Orderly.mono (orderly : Orderly now t) {later : Float} (order : now ≤ later) : Orderly later t := by
  refine ⟨orderly.short, orderly.ordered, fun sample member => ?_⟩
  obtain ⟨nonnegative, past⟩ := orderly.past sample member
  exact ⟨nonnegative, Scalar.le_trans past order⟩

theorem Orderly.sublist (orderly : Orderly now t) {samples : List Sample} {capacity : Nat}
    (sublist : samples.Sublist t.samples) (short : samples.length ≤ capacity) : Orderly now ⟨samples, capacity⟩ where
  short := short
  ordered := orderly.ordered.sublist sublist
  past := fun sample member => orderly.past sample (sublist.subset member)

theorem Orderly.withCapacity (orderly : Orderly now t) (capacity : Nat) :
    Orderly now (t.withCapacity capacity) :=
  orderly.sublist (newest_sublist _ _) (length_newest_le _ _)

theorem Orderly.append (orderly : Orderly now t) (nonnegative : 0.0 ≤ now) (position : Vec) :
    Orderly now ⟨t.samples ++ [⟨position, now⟩], t.capacity + 1⟩ := by
  have number := (Scalar.not_isNaN_of_le nonnegative).2
  refine ⟨?_, List.pairwise_append.mpr ⟨orderly.ordered, List.pairwise_singleton _ _, ?_⟩, ?_⟩
  · change (t.samples ++ [_]).length ≤ _
    rw [List.length_append, List.length_singleton]
    exact Nat.succ_le_succ orderly.short
  · intro old member new same
    rw [List.mem_singleton.mp same]
    exact (orderly.past old member).2
  · intro sample member
    rcases List.mem_append.mp member with old | new
    · exact orderly.past sample old
    · rw [List.mem_singleton.mp new]
      exact ⟨nonnegative, Scalar.le_refl number⟩

theorem Orderly.push (orderly : Orderly now t) (nonnegative : 0.0 ≤ now) (position : Vec) :
    Orderly now (t.push position now) :=
  (orderly.append nonnegative position).sublist (newest_sublist _ _) (length_newest_le _ _)

theorem Orderly.evict (orderly : Orderly now t) (age : Float) : Orderly now (t.evict now age) := by
  have sublist : (t.evict now age).samples.Sublist t.samples := List.dropWhile_sublist _
  exact orderly.sublist sublist (sublist.length_le.trans orderly.short)

/-- Where whatever precedes an item that goes has to go too, it is enough to look at the first item. -/
theorem dropWhile_eq_filter {α : Type} {goes : α → Bool} {items : List α}
    (ordered : items.Pairwise fun a b => goes b = true → goes a = true) :
    items.dropWhile goes = items.filter fun a => !goes a := by
  induction items with
  | nil => rfl
  | cons a items induction =>
      obtain ⟨first, rest⟩ := List.pairwise_cons.mp ordered
      cases test : goes a with
      | true => rw [List.dropWhile_cons_of_pos test, List.filter_cons_of_neg (by simp [test]), induction rest]
      | false =>
          have stay : ∀ b ∈ a :: items, (!goes b) = true := by
            refine List.forall_mem_cons.mpr ⟨by simp [test], fun b member => ?_⟩
            have kept := mt (first b member)
            simpa [test] using kept
          rw [List.dropWhile_cons_of_neg (by simp [test]), List.filter_eq_self.mpr stay]

/-- Only the oldest sample is looked at, but the ones behind it are younger. -/
theorem evict_eq_filter (ordered : t.samples.Pairwise (·.born ≤ ·.born)) (now age : Float) :
    (t.evict now age).samples = t.samples.filter fun s => ¬ now - s.born > age := by
  have falling : t.samples.Pairwise fun s s' =>
      decide (now - s'.born > age) = true → decide (now - s.born > age) = true := by
    refine ordered.imp fun order old => ?_
    rw [decide_eq_true_iff] at old ⊢
    exact Scalar.lt_sub_of_le order old
  exact (dropWhile_eq_filter falling).trans (List.filter_congr fun _ _ => decide_not.symm)

theorem Orderly.young_of_mem_evict (orderly : Orderly now t) (age : Float) :
    ∀ sample ∈ (t.evict now age).samples, ¬ now - sample.born > age := by
  rw [evict_eq_filter orderly.ordered]
  exact fun sample member => of_decide_eq_true (List.mem_filter.mp member).2

end Trail

namespace Particle

/-- A particle at a time under settings: its trail has their capacity and is orderly. -/
structure Trailing (s : SwarmSettings) (now : Float) (p : Particle) : Prop where
  capacity : p.trail.capacity = s.trailLength
  orderly : p.trail.Orderly now

variable {s : SwarmSettings} {view : Viewport} {clock : Clock} {velocity : Vec → Vec} {p q : Particle}
  {stream : Stream} {now : Float}

theorem trailing_empty (now : Float) (untrailed : p.trail = .empty s.trailLength) : Trailing s now p := by
  constructor
  · rw [untrailed]
    rfl
  · rw [untrailed]
    exact Trail.orderly_empty now _

theorem trail_move (s : SwarmSettings) (view : Viewport) (step : Vec) (p : Particle) (stream : Stream) :
    (p.move s view step stream).1.1.trail = p.trail ∨ (p.move s view step stream).1.1.trail = p.trail.clear := by
  rcases move_eq s view step p stream with ⟨-, went⟩ | ⟨-, went⟩
  · exact .inl (congrArg (·.1.trail) went)
  · exact .inr (congrArg (·.1.trail) went)

theorem Trailing.move (trailing : Trailing s now p) (view : Viewport) (step : Vec) (stream : Stream) :
    Trailing s now (p.move s view step stream).1.1 := by
  rcases trail_move s view step p stream with kept | cleared
  · constructor
    · rw [kept]
      exact trailing.capacity
    · rw [kept]
      exact trailing.orderly
  · apply trailing_empty
    rw [cleared, ← trailing.capacity]
    rfl

theorem Trailing.extendTrail (trailing : Trailing s now p) (nonnegative : 0.0 ≤ now) :
    Trailing s now (p.extendTrail s now) ∧
      ∀ sample ∈ (p.extendTrail s now).trail.samples, ¬ now - sample.born > s.trailAge := by
  have extended : ∃ t : Trail, t.capacity = s.trailLength ∧ t.Orderly now ∧
      (p.extendTrail s now).trail = t.evict now s.trailAge := by
    unfold Particle.extendTrail
    split
    · exact ⟨p.trail.push p.position now, trailing.capacity, trailing.orderly.push nonnegative _, rfl⟩
    · exact ⟨_, trailing.capacity, trailing.orderly, rfl⟩
  obtain ⟨t, capacity, orderly, trail⟩ := extended
  refine ⟨⟨?_, ?_⟩, ?_⟩
  · rw [trail]
    exact capacity
  · rw [trail]
    exact orderly.evict _
  · rw [trail]
    exact orderly.young_of_mem_evict _

theorem Trailing.tick (trailing : Trailing s now p) (nonnegative : 0.0 ≤ now) (order : now ≤ clock.now)
    (left : (p.tick s view clock velocity stream).1.particle = some q) :
    Trailing s clock.now q ∧ ∀ sample ∈ q.trail.samples, ¬ clock.now - sample.born > s.trailAge := by
  have current : Trailing s clock.now p := ⟨trailing.capacity, trailing.orderly.mono order⟩
  have moved := current.move view (p.stride s clock (velocity p.position)) stream
  have grown := moved.extendTrail (Scalar.le_trans nonnegative order)
  obtain ⟨-, ⟨-, rfl⟩ | ⟨-, stream', rfl⟩⟩ := tick_eq_some left
  · exact ⟨⟨grown.1.capacity, grown.1.orderly⟩, grown.2⟩
  · refine ⟨trailing_empty _ ?_, fun _ none => absurd none List.not_mem_nil⟩
    exact congrArg Trail.empty grown.1.capacity

end Particle

namespace Swarm

structure Trailing (swarm : Swarm) : Prop where
  clock : 0.0 ≤ swarm.clock
  particles : ∀ p ∈ swarm.particles, p.Trailing swarm.settings swarm.clock

variable {swarm : Swarm} {p : Particle}

theorem advance_nonneg (delta : Float) : 0.0 ≤ advance delta ∧ Scalar.isFinite (advance delta) = true := by
  unfold advance
  split
  · next advances =>
    obtain ⟨finite, positive⟩ := Bool.and_eq_true_iff.mp advances
    exact ⟨Scalar.le_of_lt (of_decide_eq_true positive), finite⟩
  · exact ⟨by decide, by decide⟩

theorem le_add_advance {clock : Float} (nonnegative : 0.0 ≤ clock) (delta : Float) :
    clock ≤ clock + advance delta := by
  obtain ⟨forward, finite⟩ := advance_nonneg delta
  exact Scalar.le_add_of_nonneg forward (Scalar.isNaN_add_of_isFinite (Scalar.not_isNaN_of_le nonnegative).2 finite)

theorem Trailing.reset (trailing : Trailing swarm) (stream : Stream) : Trailing (swarm.reset stream).1 := by
  refine ⟨trailing.clock, fun p member => ?_⟩
  obtain ⟨stream', rfl⟩ := mem_reset member
  exact Particle.trailing_empty _ rfl

theorem Trailing.burst (trailing : Trailing swarm) (center : Vec) (n : Nat) (stream : Stream) :
    Trailing (swarm.burst center n stream).1 := by
  refine ⟨trailing.clock, fun p member => ?_⟩
  rcases mem_burst member with old | ⟨stream', rfl⟩
  · exact trailing.particles p old
  · exact Particle.trailing_empty _ rfl

theorem Trailing.withSettings (trailing : Trailing swarm) (s : SwarmSettings) :
    Trailing (swarm.withSettings s) := by
  refine ⟨trailing.clock, fun p member => ?_⟩
  obtain ⟨old, member', rfl⟩ := List.mem_map.mp member
  exact ⟨rfl, (trailing.particles old member').orderly.withCapacity s.trailLength⟩

theorem Trailing.tick (trailing : Trailing swarm) (delta : Float) (velocity : Vec → Vec) (stream : Stream) :
    let next := (swarm.tick delta velocity stream).1
    Trailing next ∧ ∀ p ∈ next.particles, ∀ sample ∈ p.trail.samples,
      ¬ next.clock - sample.born > next.settings.trailAge := by
  have order := le_add_advance trailing.clock delta
  have each : ∀ p ∈ (swarm.tick delta velocity stream).1.particles,
      p.Trailing swarm.settings (swarm.clock + advance delta) ∧
        ∀ sample ∈ p.trail.samples,
          ¬ swarm.clock + advance delta - sample.born > swarm.settings.trailAge := by
    intro p member
    rcases mem_tick member with ⟨old, member', stream', left⟩ | ⟨stream', rfl⟩
    · refine (trailing.particles old member').tick trailing.clock ?_ left
      exact order
    · exact ⟨Particle.trailing_empty _ rfl, fun _ none => absurd none List.not_mem_nil⟩
  have later : 0.0 ≤ swarm.clock + advance delta := Scalar.le_trans trailing.clock order
  exact ⟨⟨later, fun p member => (each p member).1⟩, fun p member => (each p member).2⟩

theorem Arises.trailing {admitted : SwarmSettings → Prop} (arises : Arises admitted swarm) :
    Trailing swarm := by
  induction arises with
  | @start s view stream admits =>
      have zero : (0.0 : Float) ≤ 0.0 := by decide
      have none : Trailing ⟨s, view, [], 0.0, .zero⟩ := ⟨zero, nofun⟩
      exact none.reset stream
  | tick delta velocity stream arises trailing => exact (trailing.tick delta velocity stream).1
  | burst center n stream arises trailing => exact trailing.burst center n stream
  | withSettings admits arises trailing => exact trailing.withSettings _
  | reset stream arises trailing => exact trailing.reset stream

/-- Wherever a run has led, every trail has the capacity of the current settings, no more samples than that, and the
times of its samples, none later than the clock, in order; and a tick leaves no sample that is too old. -/
theorem Arises.trails_kept {admitted : SwarmSettings → Prop} (arises : Arises admitted swarm) :
    (∀ p ∈ swarm.particles,
      p.trail.capacity = swarm.settings.trailLength ∧
      p.trail.length ≤ swarm.settings.trailLength ∧
      p.trail.samples.Pairwise (·.born ≤ ·.born) ∧
      ∀ sample ∈ p.trail.samples, sample.born ≤ swarm.clock) ∧
    ∀ delta velocity stream,
      let next := (swarm.tick delta velocity stream).1
      ∀ p ∈ next.particles, ∀ sample ∈ p.trail.samples,
        ¬ next.clock - sample.born > next.settings.trailAge := by
  have trailing := arises.trailing
  refine ⟨fun p member => ?_, fun delta velocity stream => (trailing.tick delta velocity stream).2⟩
  obtain ⟨capacity, orderly⟩ := trailing.particles p member
  have short := orderly.short
  rw [capacity] at short
  exact ⟨capacity, short, orderly.ordered, fun sample member => (orderly.past sample member).2⟩

theorem standard_trails_kept :
    ∃ swarm, Arises (fun _ => True) swarm ∧ 0 < swarm.size ∧
      (∀ p ∈ swarm.particles, p.trail.capacity = 5 ∧ p.trail.length ≤ 5) ∧
      ∀ delta velocity stream, ∀ p ∈ (swarm.tick delta velocity stream).1.particles,
        ∀ sample ∈ p.trail.samples,
          ¬ (swarm.tick delta velocity stream).1.clock - sample.born > SwarmSettings.standard.trailAge := by
  have view : Viewport := ⟨800.0, 600.0, by decide⟩
  obtain ⟨first, started⟩ : ∃ first, first = (start .standard view (.ofSeed 7)).1 := ⟨_, rfl⟩
  obtain ⟨swarm, ticked⟩ : ∃ swarm, swarm = (first.tick 16.0 (fun _ => ⟨1.0, 1.0⟩) (.ofSeed 8)).1 := ⟨_, rfl⟩
  have arises : Arises (fun _ => True) swarm := by
    rw [ticked, started]
    exact (Arises.start view _ trivial).tick _ _ _
  have settings : swarm.settings = .standard := by rw [ticked, settings_tick, started, settings_start]
  have trails := Arises.trails_kept arises
  refine ⟨swarm, arises, ?_, fun p member => ?_, fun delta velocity stream => ?_⟩
  · obtain ⟨kept, -, size⟩ := exists_size_tick first 16.0 (fun _ => ⟨1.0, 1.0⟩) (.ofSeed 8)
    have some : 0 < SwarmSettings.standard.count := by decide
    rw [ticked, size, started, settings_start]
    exact some.trans_le (Nat.le_max_left _ _)
  · obtain ⟨capacity, length, -⟩ := trails.1 p member
    rw [settings] at capacity length
    exact ⟨capacity, length⟩
  · have young := trails.2 delta velocity stream
    simp only [settings_tick, settings] at young
    exact young

end Swarm

end DriftField
