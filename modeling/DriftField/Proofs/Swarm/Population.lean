import Mathlib
import DriftField.Swarm.Basic
/-!
The population of a swarm over whole runs: a tick brings it between the count that is aimed at and the ceiling, and a
swarm that nothing disturbs stays at that count.
-/

namespace DriftField

theorem Draw.length_mapM {α β : Type} (draw : α → Draw β) (items : List α) (stream : Stream) :
    (items.mapM draw stream).1.length = items.length := by
  induction items generalizing stream with
  | nil => rfl
  | cons item items induction =>
      rw [List.mapM_cons]
      exact congrArg Nat.succ (induction _)

theorem length_newest {α : Type} (n : Nat) (items : List α) :
    (newest n items).length = min n items.length := by
  unfold newest
  rw [List.length_drop]
  omega

namespace SwarmSettings

theorem count_le_ceiling (s : SwarmSettings) : s.count ≤ s.ceiling :=
  calc
    s.count ≤ s.positiveCount := Nat.le_max_left _ _
    _ = 1 * s.positiveCount := (Nat.one_mul _).symm
    _ ≤ s.ceiling := Nat.mul_le_mul_right _ (Nat.le_max_right _ _)

end SwarmSettings

namespace Swarm

theorem length_drawMany {α : Type} (n : Nat) (draw : Draw α) (stream : Stream) :
    (drawMany n draw stream).1.length = n := by
  unfold drawMany
  rw [Draw.length_mapM, List.length_replicate]

theorem length_replenish (s : SwarmSettings) (view : Viewport) (particles : List Particle)
    (stream : Stream) :
    (replenish s view particles stream).1.1.length = max s.count particles.length := by
  have fresh := length_drawMany (s.count - particles.length) (Particle.spawn s view) stream
  change (particles ++ (drawMany _ _ stream).1).length = _
  rw [List.length_append, fresh]
  omega

/-! What each operation makes of the population and the settings. -/

@[simp] theorem settings_reset (swarm : Swarm) (stream : Stream) :
    (swarm.reset stream).1.settings = swarm.settings := rfl

theorem size_reset (swarm : Swarm) (stream : Stream) :
    (swarm.reset stream).1.size = swarm.settings.count := by
  have length := length_replenish swarm.settings swarm.view [] stream
  rw [List.length_nil, Nat.max_zero] at length
  exact length

@[simp] theorem settings_start (s : SwarmSettings) (view : Viewport) (stream : Stream) :
    (start s view stream).1.settings = s := rfl

theorem size_start (s : SwarmSettings) (view : Viewport) (stream : Stream) :
    (start s view stream).1.size = s.count := size_reset _ stream

@[simp] theorem settings_withSettings (swarm : Swarm) (s : SwarmSettings) :
    (swarm.withSettings s).settings = s := rfl

@[simp] theorem size_withSettings (swarm : Swarm) (s : SwarmSettings) :
    (swarm.withSettings s).size = swarm.size := List.length_map _

@[simp] theorem settings_burst (swarm : Swarm) (center : Vec) (n : Nat) (stream : Stream) :
    (swarm.burst center n stream).1.settings = swarm.settings := rfl

@[simp] theorem settings_tick (swarm : Swarm) (delta : Float) (velocity : Vec → Vec)
    (stream : Stream) : (swarm.tick delta velocity stream).1.settings = swarm.settings := rfl

theorem exists_size_tick (swarm : Swarm) (delta : Float) (velocity : Vec → Vec)
    (stream : Stream) :
    ∃ kept ≤ swarm.size, (swarm.tick delta velocity stream).1.size =
      max swarm.settings.count (min swarm.settings.ceiling kept) := by
  let swept := swarm.sweep ⟨swarm.clock + advance delta, advance delta / timeStep⟩ velocity stream
  let kept := swept.1.filterMap (·.particle)
  refine ⟨kept.length, ?_, ?_⟩
  · calc
      kept.length ≤ swept.1.length := List.length_filterMap_le _ _
      _ = swarm.size := Draw.length_mapM _ _ _
  · rw [← length_newest]
    exact length_replenish swarm.settings swarm.view (newest swarm.settings.ceiling kept) swept.2

/-- The swarms of a run, each operation drawing from any stream. A swarm is steady when, since it was last made or
reset, no burst was added and no new settings changed the count. -/
inductive Reached : (steady : Bool) → Swarm → Prop
  | start (s : SwarmSettings) (view : Viewport) (stream : Stream) (fits : s.CeilingFits) :
      Reached true (start s view stream).1
  | tick {steady : Bool} {swarm : Swarm} (delta : Float) (velocity : Vec → Vec) (stream : Stream)
      (reached : Reached steady swarm) : Reached steady (swarm.tick delta velocity stream).1
  | burst {steady : Bool} {swarm : Swarm} (center : Vec) (n : Nat) (stream : Stream)
      (reached : Reached steady swarm) : Reached false (swarm.burst center n stream).1
  | withSettings {steady : Bool} {swarm : Swarm} (s : SwarmSettings) (fits : s.CeilingFits)
      (reached : Reached steady swarm) :
      Reached (steady && s.count == swarm.settings.count) (swarm.withSettings s)
  | reset {steady : Bool} {swarm : Swarm} (stream : Stream) (reached : Reached steady swarm) :
      Reached true (swarm.reset stream).1

/-- What every operation preserves. -/
structure Populated (steady : Bool) (swarm : Swarm) : Prop where
  fits : swarm.settings.CeilingFits
  size_eq : steady = true → swarm.size = swarm.settings.count

theorem size_tick_of_populated {steady : Bool} {swarm : Swarm} (populated : Populated steady swarm)
    (delta : Float) (velocity : Vec → Vec) (stream : Stream) :
    swarm.settings.count ≤ (swarm.tick delta velocity stream).1.size ∧
      (swarm.tick delta velocity stream).1.size ≤ swarm.settings.ceiling ∧
      (steady = true → (swarm.tick delta velocity stream).1.size = swarm.settings.count) := by
  obtain ⟨kept, few, size⟩ := exists_size_tick swarm delta velocity stream
  have bound := swarm.settings.count_le_ceiling
  rw [size]
  refine ⟨Nat.le_max_left _ _, Nat.max_le.mpr ⟨bound, Nat.min_le_left _ _⟩, fun still => ?_⟩
  have same := populated.size_eq still
  omega

theorem Populated.tick {steady : Bool} {swarm : Swarm} (populated : Populated steady swarm)
    (delta : Float) (velocity : Vec → Vec) (stream : Stream) :
    Populated steady (swarm.tick delta velocity stream).1 :=
  ⟨populated.fits, (size_tick_of_populated populated delta velocity stream).2.2⟩

theorem Populated.withSettings {steady : Bool} {swarm : Swarm} {s : SwarmSettings}
    (fits : s.CeilingFits) (populated : Populated steady swarm) :
    Populated (steady && s.count == swarm.settings.count) (swarm.withSettings s) := by
  refine ⟨fits, fun still => ?_⟩
  obtain ⟨still, same⟩ := Bool.and_eq_true_iff.mp still
  rw [size_withSettings, settings_withSettings, eq_of_beq same]
  exact populated.size_eq still

theorem Reached.populated {steady : Bool} {swarm : Swarm} (reached : Reached steady swarm) :
    Populated steady swarm := by
  induction reached with
  | start s view stream fits => exact ⟨fits, fun _ => size_start s view stream⟩
  | tick delta velocity stream reached populated => exact populated.tick delta velocity stream
  | burst center n stream reached populated =>
      refine ⟨?_, Bool.noConfusion⟩
      rw [settings_burst]
      exact populated.fits
  | withSettings s fits reached populated => exact populated.withSettings fits
  | reset stream reached populated =>
      refine ⟨?_, fun _ => size_reset _ stream⟩
      rw [settings_reset]
      exact populated.fits

/-- Wherever the run has led, a tick comes to an end. Right after it the population is between the count that is aimed
at and the ceiling, and it is that count as long as nothing has disturbed the swarm. -/
theorem Reached.population_after_tick {steady : Bool} {swarm : Swarm}
    (reached : Reached steady swarm) (delta : Float) (velocity : Vec → Vec) (stream : Stream) :
    let next := (swarm.tick delta velocity stream).1
    swarm.tick? delta velocity stream = some (swarm.tick delta velocity stream) ∧
    next.settings.count ≤ next.size ∧ next.size ≤ next.settings.ceiling ∧
      (steady = true → next.size = next.settings.count) :=
  ⟨if_pos reached.populated.fits, size_tick_of_populated reached.populated delta velocity stream⟩

theorem standard_size_after_first_tick :
    ∃ swarm, Reached true swarm ∧ ∀ delta velocity stream,
      (swarm.tick delta velocity stream).1.size = 1000 := by
  have fits : SwarmSettings.standard.CeilingFits := by decide
  have view : Viewport := ⟨800.0, 600.0, by decide⟩
  have reached := Reached.start .standard view (.ofSeed 7) fits
  refine ⟨_, reached, fun delta velocity stream => ?_⟩
  have same := (Reached.population_after_tick reached delta velocity stream).2.2.2 rfl
  rw [settings_tick, settings_start] at same
  exact same

end Swarm

end DriftField
