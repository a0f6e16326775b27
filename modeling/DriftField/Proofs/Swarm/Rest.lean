import Mathlib
import DriftField.Proofs.Scalar.Zero
import DriftField.Proofs.Swarm.Tally
/-!
Ticks of no time. A tick by milliseconds that are not positive, or not finite, is a whole tick with a time step of zero:
every step is a zero, so every particle stays where it is with the life that it has. Particles outside are removed, and
the population is brought back as after any tick.
-/

namespace DriftField

structure Vec.Same (v w : Vec) : Prop where
  x : Scalar.Same v.x w.x
  y : Scalar.Same v.y w.y

theorem Vec.Same.isFinite {v w : Vec} (same : v.Same w) (finite : w.isFinite = true) : v.isFinite = true := by
  obtain ⟨x, y⟩ := Bool.and_eq_true_iff.mp finite
  exact Bool.and_eq_true_iff.mpr ⟨same.x.isFinite x, same.y.isFinite y⟩

theorem Viewport.contains_congr {view : Viewport} {margin : Float} {p q : Vec} (same : p.Same q) :
    view.contains margin p = view.contains margin q := by
  rw [Bool.eq_iff_iff]
  unfold contains
  simp only [Bool.and_eq_true, decide_eq_true_eq]
  apply and_congr
  · apply and_congr
    · exact and_congr same.x.le_iff_right same.x.le_iff_left
    · exact same.y.le_iff_right
  · exact same.y.le_iff_left

theorem Draw.mapM_eq_map {α β : Type} {draw : α → Draw β} {f : α → β} {items : List α}
    (still : ∀ a ∈ items, ∀ stream, draw a stream = (f a, stream)) (stream : Stream) :
    items.mapM draw stream = (items.map f, stream) := by
  induction items with
  | nil => rfl
  | cons a items induction =>
      obtain ⟨first, later⟩ := List.forall_mem_cons.mp still
      rw [Draw.mapM_cons_run, first, induction later]
      rfl

namespace Particle

/-- A particle that is somewhere, has some life left, and moves by a finite step in one time step. -/
structure Steady (s : SwarmSettings) (velocity : Vec → Vec) (p : Particle) : Prop where
  placed : p.position.isFinite = true
  alive : 0.0 < p.life
  finite : (((velocity p.position).scale p.speed).scale s.stepScale).isFinite = true

/-- What a particle is after no time: a tick older, with its place at the end of its trail, and else what it was. -/
structure Rested (s : SwarmSettings) (now : Float) (p q : Particle) : Prop where
  position : q.position.Same p.position
  speed : q.speed = p.speed
  life : Scalar.Same q.life p.life
  age : q.age = p.age + 1
  colour : q.colour = p.colour
  trail : q.trail = (p.trail.push q.position now).evict now s.trailAge

def moved (s : SwarmSettings) (now : Float) (velocity : Vec → Vec) (p : Particle) : Particle :=
  { p with position := p.position + p.stride s ⟨now, 0.0⟩ (velocity p.position) }

def rested (s : SwarmSettings) (now : Float) (velocity : Vec → Vec) (p : Particle) : Particle :=
  ((p.moved s now velocity).extendTrail s now).grow s 0.0

variable {s : SwarmSettings} {view : Viewport} {velocity : Vec → Vec} {now : Float} {p : Particle}

/-- In no time every step is a zero along both axes. -/
theorem Steady.isZero_stride (steady : p.Steady s velocity) (now : Float) :
    let step := p.stride s ⟨now, 0.0⟩ (velocity p.position)
    Scalar.IsZero step.x ∧ Scalar.IsZero step.y := by
  obtain ⟨x, y⟩ := Bool.and_eq_true_iff.mp steady.finite
  exact ⟨Scalar.isZero_zero.mul x, Scalar.isZero_zero.mul y⟩

theorem Steady.same_moved (steady : p.Steady s velocity) (now : Float) :
    (p.moved s now velocity).position.Same p.position := by
  obtain ⟨x, y⟩ := steady.isZero_stride now
  exact ⟨x.add_same p.position.x, y.add_same p.position.y⟩

/-- No bound is passed by a zero, and the place stays finite, so the step is taken. -/
theorem Steady.admits (steady : p.Steady s velocity) (bound : 0.0 ≤ s.greatestStep) (now : Float) :
    p.admits s (p.stride s ⟨now, 0.0⟩ (velocity p.position)) = true := by
  obtain ⟨x, y⟩ := steady.isZero_stride now
  rw [admits_iff]
  exact ⟨x.abs.not_lt bound, y.abs.not_lt bound, (steady.same_moved now).isFinite steady.placed⟩

theorem Steady.rested (steady : p.Steady s velocity) (decay : Scalar.isFinite s.decay = true) (now : Float) :
    Rested s now p (p.rested s now velocity) := by
  have here := steady.same_moved now
  have taken : Scalar.IsZero (s.decay * 0.0) := Scalar.isZero_zero.mul decay
  refine ⟨here, rfl, taken.sub_same p.life, rfl, rfl, ?_⟩
  change ((p.moved s now velocity).extendTrail s now).trail = _
  unfold extendTrail
  rw [if_pos (here.isFinite steady.placed)]
  rfl

/-- A tick of no time draws nothing: it keeps a particle, or removes it because it is too far outside. -/
theorem Steady.tick_eq (steady : p.Steady s velocity) (bound : 0.0 ≤ s.greatestStep)
    (decay : Scalar.isFinite s.decay = true) (now : Float) (stream : Stream) :
    p.tick s view ⟨now, 0.0⟩ velocity stream =
      (⟨if view.contains s.margin p.position then some (p.rested s now velocity) else none, false, false⟩,
        stream) := by
  have going : ¬ (((p.moved s now velocity).extendTrail s now).grow s 0.0).life ≤ 0.0 := by
    intro spent
    exact Scalar.not_lt_of_le ((steady.rested decay now).life.le_left spent) steady.alive
  have moving : p.move s view (p.stride s ⟨now, 0.0⟩ (velocity p.position)) stream =
      ((p.moved s now velocity, false), stream) := by
    unfold move
    rw [if_pos (steady.admits bound now)]
    rfl
  have inside : view.contains s.margin (p.moved s now velocity).position = view.contains s.margin p.position :=
    Viewport.contains_congr (steady.same_moved now)
  unfold tick
  simp only [bind, StateT.bind, moving, inside]
  cases view.contains s.margin p.position with
  | false => rfl
  | true =>
      rw [if_neg (by decide), if_neg going]
      rfl

end Particle

namespace Swarm

variable (swarm : Swarm) (delta : Float) (velocity : Vec → Vec) (stream : Stream)

/-- The particles that are not too far outside. -/
def within : List Particle := swarm.particles.filter fun p => swarm.view.contains swarm.settings.margin p.position

variable {swarm delta velocity}

theorem advance_eq_zero (idle : Scalar.isFinite delta = false ∨ delta ≤ 0.0) : advance delta = 0.0 := by
  unfold advance
  rw [if_neg]
  rw [Bool.and_eq_true, decide_eq_true_iff]
  rintro ⟨finite, positive⟩
  rcases idle with infinite | late
  · exact Bool.false_ne_true (infinite.symm.trans finite)
  · exact Scalar.not_lt_of_le late positive

theorem tickClock_eq (idle : Scalar.isFinite delta = false ∨ delta ≤ 0.0) :
    swarm.tickClock delta = ⟨swarm.clock + 0.0, 0.0⟩ := by
  have none : (0.0 / timeStep : Float) = 0.0 := Scalar.ext_toBits (by decide)
  unfold tickClock
  rw [advance_eq_zero idle, none]

/-- In a tick of no time nothing is put elsewhere and nothing begins a new life. -/
theorem outcomes_eq_map (idle : Scalar.isFinite delta = false ∨ delta ≤ 0.0)
    (steady : ∀ p ∈ swarm.particles, p.Steady swarm.settings velocity) (bound : 0.0 ≤ swarm.settings.greatestStep)
    (decay : Scalar.isFinite swarm.settings.decay = true) :
    swarm.outcomes delta velocity stream = swarm.particles.map fun p =>
      ⟨if swarm.view.contains swarm.settings.margin p.position then
        some (p.rested swarm.settings (swarm.clock + 0.0) velocity) else none, false, false⟩ := by
  unfold outcomes sweep
  rw [tickClock_eq idle, Draw.mapM_eq_map fun p member stream => (steady p member).tick_eq bound decay _ stream]

theorem kept_eq_map (idle : Scalar.isFinite delta = false ∨ delta ≤ 0.0)
    (steady : ∀ p ∈ swarm.particles, p.Steady swarm.settings velocity) (bound : 0.0 ≤ swarm.settings.greatestStep)
    (decay : Scalar.isFinite swarm.settings.decay = true) :
    (swarm.outcomes delta velocity stream).filterMap (·.particle) =
      swarm.within.map fun p => p.rested swarm.settings (swarm.clock + 0.0) velocity := by
  unfold within
  rw [outcomes_eq_map stream idle steady bound decay, List.filterMap_map, ← List.filterMap_eq_map,
    List.filterMap_filter]
  rfl

/-- In a tick by no time, by less, or by a time that is not finite, the clock stays, no particle is put elsewhere or
begins a new life, and each one that was not too far outside is left in its place. The others are removed, and only then
are the oldest dropped or new ones drawn. -/
theorem idle_tick_keeps (idle : Scalar.isFinite delta = false ∨ delta ≤ 0.0)
    (steady : ∀ p ∈ swarm.particles, p.Steady swarm.settings velocity) (bound : 0.0 ≤ swarm.settings.greatestStep)
    (decay : Scalar.isFinite swarm.settings.decay = true) :
    let next := (swarm.tick delta velocity stream).1
    let st := next.lastTick
    (Scalar.Same next.clock swarm.clock ∧ next.settings = swarm.settings ∧ next.view = swarm.view) ∧
    (st.relocated = 0 ∧ st.respawned = 0 ∧ swarm.within.length + st.culled = swarm.size) ∧
    (∃ kept, List.Forall₂ (Particle.Rested swarm.settings next.clock) swarm.within kept ∧
      st.trimmed = kept.length - swarm.settings.ceiling ∧
      st.spawned = swarm.settings.count - (kept.drop st.trimmed).length ∧
      next.particles = kept.drop st.trimmed ++
        Draw.successive 7 (Particle.spawn swarm.settings swarm.view) st.spawned stream) ∧
    (swarm.tick delta velocity stream).2 = Stream.next^[7 * st.spawned] stream := by
  have relocated : (swarm.outcomes delta velocity stream).countP (·.relocated) = 0 := by
    rw [outcomes_eq_map stream idle steady bound decay, List.countP_map]
    exact congrFun List.countP_false _
  have respawned : (swarm.outcomes delta velocity stream).countP (·.respawned) = 0 := by
    rw [outcomes_eq_map stream idle steady bound decay, List.countP_map]
    exact congrFun List.countP_false _
  have kept := swarm.kept_eq_map stream idle steady bound decay
  have whole := length_kept_add_culled (swarm.outcomes delta velocity stream)
  rw [kept, List.length_map, length_outcomes] at whole
  rw [tick_eq, advance_eq_zero idle]
  dsimp only
  rw [relocated, respawned, kept]
  refine ⟨⟨Scalar.isZero_zero.add_same _, rfl, rfl⟩, ⟨rfl, rfl, whole⟩, ⟨_, ?_, rfl, rfl, rfl⟩, rfl⟩
  apply List.forall₂_map_right_iff.mpr
  apply List.forall₂_same.mpr
  intro p member
  exact (steady p (List.mem_of_mem_filter member)).rested decay _

def still : Particle := ⟨⟨50.0, -0.0⟩, 1.0, 0.5, 7, .white, ⟨[⟨⟨49.0, 0.0⟩, 10.0⟩], 5⟩⟩

def strayed : Particle := ⟨⟨-200.0, 50.0⟩, 1.0, 0.5, 3, .white, .empty 5⟩

def pair : Swarm := ⟨.standard, ⟨400.0, 300.0, by decide⟩, [strayed, still], 20.0, .zero⟩

/-- A tick by what is no number, under a velocity that would be too great in a whole time step. -/
theorem nan_tick_keeps :
    let next := (pair.tick Scalar.nan (fun _ => ⟨10.0, -200.0⟩) (.ofSeed 7)).1
    Scalar.Same next.clock 20.0 ∧ next.lastTick.relocated = 0 ∧ next.lastTick.culled = 1 ∧
      next.lastTick.spawned = 999 ∧ ∃ p ∈ next.particles, Particle.Rested .standard next.clock still p := by
  have steady : ∀ p ∈ pair.particles, p.Steady pair.settings fun _ => ⟨10.0, -200.0⟩ := by
    refine List.forall_mem_cons.mpr ⟨?_, List.forall_mem_singleton.mpr ?_⟩
    · exact ⟨by decide, by decide, by decide⟩
    · exact ⟨by decide, by decide, by decide⟩
  have within : pair.within = [still] := by
    have far : pair.view.contains pair.settings.margin strayed.position = false := by decide
    have near : pair.view.contains pair.settings.margin still.position = true := by decide
    change List.filter _ [strayed, still] = [still]
    rw [List.filter_cons, far, List.filter_cons, near]
    rfl
  have idle : Scalar.isFinite Scalar.nan = false ∨ Scalar.nan ≤ 0.0 := .inl (by decide)
  have wide : 1 ≤ pair.settings.ceiling := by decide
  have aim : pair.settings.count = 1000 := rfl
  have kept := idle_tick_keeps (.ofSeed 7) idle steady (by decide) (by decide)
  generalize pair.tick Scalar.nan (fun _ => ⟨10.0, -200.0⟩) (.ofSeed 7) = next at kept ⊢
  obtain ⟨⟨clock, -⟩, ⟨relocated, -, culled⟩, ⟨kept, rested, trimmed, spawned, particles⟩, -⟩ := kept
  rw [within] at rested culled
  obtain ⟨p, rest, left, nothing, rfl⟩ := List.forall₂_cons_left_iff.mp rested
  rw [List.forall₂_nil_left_iff.mp nothing] at trimmed spawned particles
  rw [List.length_singleton, Nat.sub_eq_zero_of_le wide] at trimmed
  rw [trimmed, List.drop_zero] at spawned particles
  refine ⟨clock, relocated, Nat.add_left_cancel culled, ?_, p, ?_, left⟩
  · rw [spawned, aim, List.length_singleton]
  · rw [particles]
    exact List.mem_cons_self

end Swarm

end DriftField
