import Mathlib
import DriftField.Proofs.Swarm.Draws
/-!
What a tick and a burst count. Particles come and go only as the counts of a tick say, a burst drops the oldest ones and
nothing else, and both tell how many words they have drawn.
-/

namespace DriftField

namespace Swarm

open Particle (Outcome)

variable (swarm : Swarm) (delta : Float) (velocity : Vec → Vec) (stream : Stream)

def tickClock : Particle.Clock := ⟨swarm.clock + advance delta, advance delta / timeStep⟩

/-- What becomes of each particle in a tick, in their order. -/
def outcomes : List Outcome := (swarm.sweep (swarm.tickClock delta) velocity stream).1

theorem length_outcomes : (swarm.outcomes delta velocity stream).length = swarm.size := Draw.length_mapM _ _ _

/-- Each particle has its own tick, and draws where the ones before it have left the stream. -/
theorem sweep_words :
    (swarm.sweep (swarm.tickClock delta) velocity stream).2 =
        Stream.next^[((swarm.outcomes delta velocity stream).map Outcome.words).sum] stream ∧
      ∀ i (within : i < swarm.particles.length), (swarm.outcomes delta velocity stream)[i]? =
        some (swarm.particles[i].tick swarm.settings swarm.view (swarm.tickClock delta) velocity
          (Stream.next^[(((swarm.outcomes delta velocity stream).take i).map Outcome.words).sum] stream)).1 :=
  Draw.mapM_words (fun p _ stream => (Particle.tick_words _ _ _ _ p stream).2) stream

theorem tick_eq :
    let outcomes := swarm.outcomes delta velocity stream
    let kept := outcomes.filterMap (·.particle)
    let words := 2 * outcomes.countP (·.relocated) + 7 * outcomes.countP (·.respawned)
    let left := newest swarm.settings.ceiling kept
    let missing := swarm.settings.count - left.length
    swarm.tick delta velocity stream =
      ({ swarm with
          particles := left ++
            Draw.successive 7 (Particle.spawn swarm.settings swarm.view) missing (Stream.next^[words] stream)
          clock := swarm.clock + advance delta
          lastTick :=
            { relocated := outcomes.countP (·.relocated)
              culled := outcomes.countP (·.particle.isNone)
              respawned := outcomes.countP (·.respawned)
              trimmed := kept.length - swarm.settings.ceiling
              spawned := missing } },
        Stream.next^[7 * missing] (Stream.next^[words] stream)) := by
  intro outcomes kept words left missing
  have rest : (swarm.sweep (swarm.tickClock delta) velocity stream).2 = Stream.next^[words] stream := by
    rw [(swarm.sweep_words delta velocity stream).1, Particle.sum_words]
  have drawn := (Particle.takes_spawn swarm.settings swarm.view).drawMany missing (Stream.next^[words] stream)
  rw [← rest] at drawn ⊢
  change (({ swarm with
    particles := left ++ (drawMany missing (Particle.spawn swarm.settings swarm.view)
      (swarm.sweep (swarm.tickClock delta) velocity stream).2).1
    clock := _
    lastTick := _ } : Swarm), (drawMany missing (Particle.spawn swarm.settings swarm.view)
      (swarm.sweep (swarm.tickClock delta) velocity stream).2).2) = _
  rw [drawn]
  rfl

/-! ### A tick -/

theorem length_kept_add_culled (outcomes : List Outcome) :
    (outcomes.filterMap (·.particle)).length + outcomes.countP (·.particle.isNone) = outcomes.length := by
  rw [List.length_filterMap_eq_countP, List.length_eq_countP_add_countP fun outcome => outcome.particle.isSome]
  simp only [Bool.not_eq_true, Option.isSome_eq_false_iff, Bool.decide_eq_true]

theorem isSome_of_mem_outcomes {outcome : Outcome} (member : outcome ∈ swarm.outcomes delta velocity stream)
    (respawned : outcome.respawned = true) : outcome.particle.isSome = true := by
  obtain ⟨p, -, stream', rfl⟩ := Draw.exists_of_mem_mapM member
  exact (Particle.tick_words _ _ _ _ p stream').1 respawned

theorem respawned_add_culled_le :
    let outcomes := swarm.outcomes delta velocity stream
    outcomes.countP (·.respawned) + outcomes.countP (·.particle.isNone) ≤ swarm.size := by
  intro outcomes
  have alive : outcomes.countP (·.respawned) ≤ outcomes.countP (·.particle.isSome) :=
    List.countP_mono_left fun _ member => swarm.isSome_of_mem_outcomes delta velocity stream member
  have whole := length_kept_add_culled outcomes
  rw [List.length_filterMap_eq_countP, length_outcomes] at whole
  omega

theorem tick?_eq_some_iff {next : Swarm} {rest : Stream} :
    swarm.tick? delta velocity stream = some (next, rest) ↔
      swarm.settings.CeilingFits ∧ swarm.tick delta velocity stream = (next, rest) :=
  Option.ite_none_right_eq_some.trans (and_congr_right' Option.some_inj)

theorem exists_tick?_iff :
    (∃ next rest, swarm.tick? delta velocity stream = some (next, rest)) ↔
      max swarm.settings.ceilingFactor 1 * max swarm.settings.count 1 < 2 ^ 64 := by
  constructor
  · intro ⟨next, rest, ticked⟩
    exact ((swarm.tick?_eq_some_iff delta velocity stream).mp ticked).1
  · intro fits
    exact ⟨_, _, (swarm.tick?_eq_some_iff delta velocity stream).mpr ⟨fits, rfl⟩⟩

/-- A tick comes to an end just when the ceiling is a machine word. It keeps the particles that it does not remove in
their order, drops the oldest ones or adds new ones at the end; what it counts makes up the difference in size and the
words that it has drawn. -/
theorem tick_accounts :
    ((∃ next rest, swarm.tick? delta velocity stream = some (next, rest)) ↔
      max swarm.settings.ceilingFactor 1 * max swarm.settings.count 1 < 2 ^ 64) ∧
    ∀ next rest, swarm.tick? delta velocity stream = some (next, rest) →
      let st := next.lastTick
      let words := 2 * st.relocated + 7 * st.respawned
      let fresh := Draw.successive 7 (Particle.spawn swarm.settings swarm.view) st.spawned (Stream.next^[words] stream)
      (next.size + st.culled + st.trimmed = swarm.size + st.spawned) ∧
      (∃ outcomes : List Outcome,
        (outcomes.length = swarm.size ∧ ∀ i (within : i < swarm.particles.length), outcomes[i]? =
          some (swarm.particles[i].tick swarm.settings swarm.view (swarm.tickClock delta) velocity
            (Stream.next^[((outcomes.take i).map Outcome.words).sum] stream)).1) ∧
        next.particles = (outcomes.filterMap (·.particle)).drop st.trimmed ++ fresh ∧
        st.relocated = outcomes.countP (·.relocated) ∧ st.culled = outcomes.countP (·.particle.isNone) ∧
        st.respawned = outcomes.countP (·.respawned)) ∧
      (fresh.length = st.spawned ∧ ∀ p ∈ fresh, p.age = 0 ∧ p.trail = .empty swarm.settings.trailLength) ∧
      (st.trimmed = 0 ∨ st.spawned = 0) ∧
      st.relocated ≤ swarm.size ∧ st.respawned ≤ swarm.size - st.culled ∧
      rest = Stream.next^[2 * st.relocated + 7 * (st.respawned + st.spawned)] stream := by
  refine ⟨swarm.exists_tick?_iff delta velocity stream, fun next rest ticked => ?_⟩
  obtain ⟨-, ticked⟩ := (swarm.tick?_eq_some_iff delta velocity stream).mp ticked
  obtain rfl : (swarm.tick delta velocity stream).1 = next := congrArg Prod.fst ticked
  obtain rfl : (swarm.tick delta velocity stream).2 = rest := congrArg Prod.snd ticked
  clear ticked
  have bound := swarm.settings.count_le_ceiling
  have each := (swarm.sweep_words delta velocity stream).2
  have alive := swarm.respawned_add_culled_le delta velocity stream
  have size := swarm.length_outcomes delta velocity stream
  have whole := length_kept_add_culled (swarm.outcomes delta velocity stream)
  have moved : (swarm.outcomes delta velocity stream).countP (·.relocated) ≤ _ := List.countP_le_length
  rw [tick_eq]
  dsimp only at alive ⊢
  generalize swarm.outcomes delta velocity stream = outcomes at each alive size whole moved ⊢
  have left := length_newest swarm.settings.ceiling (outcomes.filterMap (·.particle))
  refine ⟨?_, ⟨outcomes, ⟨size, each⟩, rfl, rfl, rfl, rfl⟩, ⟨Draw.length_successive _ _ _ _, ?_⟩, ?_, ?_, ?_, ?_⟩
  · change (newest _ _ ++ Draw.successive _ _ _ _).length + _ + _ = _
    rw [List.length_append, Draw.length_successive]
    omega
  · intro p member
    obtain ⟨stream', rfl⟩ := Draw.exists_of_mem_successive member
    exact ⟨rfl, rfl⟩
  · omega
  · omega
  · omega
  · rw [← Function.iterate_add_apply]
    congr 1
    omega

theorem exists_standard :
    ∃ swarm : Swarm, swarm.settings = .standard ∧ swarm.size = 1000 ∧ swarm.settings.CeilingFits := by
  have fits : SwarmSettings.standard.CeilingFits := by decide
  have view : Viewport := ⟨800.0, 600.0, by decide⟩
  obtain ⟨swarm, started⟩ : ∃ swarm, swarm = (start .standard view (.ofSeed 7)).1 := ⟨_, rfl⟩
  have settings : swarm.settings = .standard := by rw [started, settings_start]
  refine ⟨swarm, settings, ?_, settings ▸ fits⟩
  rw [started, size_start]
  rfl

theorem standard_tick_accounts :
    ∃ swarm : Swarm, swarm.size = 1000 ∧ ∀ delta velocity stream,
      ∃ next rest, swarm.tick? delta velocity stream = some (next, rest) ∧
        next.size + next.lastTick.culled + next.lastTick.trimmed = 1000 + next.lastTick.spawned ∧
        (next.lastTick.trimmed = 0 ∨ next.lastTick.spawned = 0) := by
  obtain ⟨swarm, settings, size, fits⟩ := exists_standard
  refine ⟨swarm, size, fun delta velocity stream => ?_⟩
  obtain ⟨ends, accounts⟩ := tick_accounts swarm delta velocity stream
  obtain ⟨next, rest, ticked⟩ := ends.mpr fits
  obtain ⟨total, -, -, exclusive, -⟩ := accounts next rest ticked
  rw [size] at total
  exact ⟨next, rest, ticked, total, exclusive⟩

/-! ### A burst -/

theorem burst_eq (center : Vec) (n : Nat) :
    let all := swarm.particles ++ Draw.successive 7 (Particle.burst swarm.settings center) n stream
    swarm.burst center n stream =
      ({ swarm with
          particles := if all.length > swarm.settings.ceiling then newest swarm.settings.afterBurst all else all },
        Stream.next^[7 * n] stream) := by
  unfold burst
  simp only [bind, StateT.bind, (Particle.takes_burst swarm.settings center).drawMany n stream]
  rfl

/-- A burst whose counts are machine words comes to an end. It leaves the newest of the old and new particles together,
in their order: all of them if they are at most as many as the ceiling, and else twice as many as are aimed at. -/
theorem burst_keeps_newest (center : Vec) (n : Nat) (fits : swarm.settings.CeilingFits)
    (doubled : 2 * swarm.settings.positiveCount < UInt64.size) :
    let next := (swarm.burst center n stream).1
    let fresh := Draw.successive 7 (Particle.burst swarm.settings center) n stream
    swarm.burst? center n stream = some (swarm.burst center n stream) ∧
    next.particles <:+ swarm.particles ++ fresh ∧
    (next.size = if swarm.size + n ≤ swarm.settings.ceiling then swarm.size + n
      else min (swarm.size + n) (2 * max swarm.settings.count 1)) ∧
    (fresh.length = n ∧ ∀ p ∈ fresh, p.age = 0 ∧ p.trail = .empty swarm.settings.trailLength) ∧
    (swarm.burst center n stream).2 = Stream.next^[7 * n] stream ∧
    (2 ≤ swarm.settings.ceilingFactor → next.size ≤ swarm.settings.ceiling) := by
  intro next fresh
  refine ⟨if_pos ⟨fits, fun _ => doubled⟩, ?_⟩
  have cut : swarm.settings.afterBurst = 2 * max swarm.settings.count 1 := rfl
  unfold next fresh
  rw [burst_eq]
  unfold size
  dsimp only
  generalize created : Draw.successive 7 (Particle.burst swarm.settings center) n stream = fresh
  have number : fresh.length = n := by rw [← created, Draw.length_successive]
  have all : (swarm.particles ++ fresh).length = swarm.particles.length + n := by
    rw [List.length_append, number]
  have new : ∀ p ∈ fresh, p.age = 0 ∧ p.trail = .empty swarm.settings.trailLength := by
    rw [← created]
    intro p member
    obtain ⟨stream', rfl⟩ := Draw.exists_of_mem_successive member
    exact ⟨rfl, rfl⟩
  rw [all]
  by_cases few : swarm.particles.length + n ≤ swarm.settings.ceiling
  · rw [if_neg (Nat.not_lt.mpr few), if_pos few]
    exact ⟨List.suffix_rfl, all, ⟨number, new⟩, rfl, fun _ => all.trans_le few⟩
  · rw [if_pos (Nat.lt_of_not_le few), if_neg few, length_newest, all, cut, Nat.min_comm]
    refine ⟨newest_suffix _ _, rfl, ⟨number, new⟩, rfl, fun wide => ?_⟩
    calc
      min (swarm.particles.length + n) (2 * max swarm.settings.count 1) ≤ 2 * max swarm.settings.count 1 :=
        Nat.min_le_right _ _
      _ ≤ max swarm.settings.ceilingFactor 1 * max swarm.settings.count 1 :=
        Nat.mul_le_mul_right _ (wide.trans (Nat.le_max_left _ _))
      _ = swarm.settings.ceiling := rfl

theorem standard_burst_keeps_newest :
    ∃ swarm : Swarm, swarm.settings.CeilingFits ∧ 2 * swarm.settings.positiveCount < UInt64.size ∧ swarm.size = 1000 ∧
      ∀ center stream, let next := (swarm.burst center 2500 stream).1
        next.size = 2000 ∧ next.size ≤ swarm.settings.ceiling ∧
          next.particles <:+
            swarm.particles ++ Draw.successive 7 (Particle.burst swarm.settings center) 2500 stream := by
  obtain ⟨swarm, settings, size, fits⟩ := exists_standard
  have doubled : 2 * SwarmSettings.standard.positiveCount < UInt64.size := by decide
  have wide : 2 ≤ SwarmSettings.standard.ceilingFactor := by decide
  rw [← settings] at doubled wide
  refine ⟨swarm, fits, doubled, size, fun center stream => ?_⟩
  obtain ⟨-, suffix, size', -, -, below⟩ := burst_keeps_newest swarm stream center 2500 fits doubled
  rw [size, settings] at size'
  exact ⟨size', below wide, suffix⟩

end Swarm

end DriftField
