import Mathlib
import DriftField.Proofs.Draw
import DriftField.Proofs.Swarm.Trails
import DriftField.Proofs.Viewport
/-!
Life and place of particles over whole runs. Every particle has some life left, wherever a run has led; a tick also
leaves each of them at a finite place that is not too far outside, whatever the velocity was and wherever it began.
-/

namespace DriftField

structure Span.Positive (s : Span) : Prop where
  low : 0.0 < s.low
  order : s.low ≤ s.high
  finite : Scalar.isFinite s.high = true

theorem Span.Positive.draw {s : Span} (positive : s.Positive) (stream : Stream) :
    0.0 < (s.draw stream).1 ∧ Scalar.isFinite (s.draw stream).1 = true := by
  obtain ⟨low, order, last⟩ := positive
  have above := Scalar.le_of_lt low
  have first : Scalar.isFinite s.low = true := Scalar.isFinite_of_mem (by decide) last above order
  obtain ⟨least, greatest⟩ := Draw.between_mem order first (Scalar.isFinite_width above order last) stream
  exact ⟨Scalar.lt_of_lt_of_le low least, Scalar.isFinite_of_mem first last least greatest⟩

theorem Viewport.holds_draw (view : Viewport) (stream : Stream) : view.Holds (view.draw stream).1 := by
  obtain ⟨⟨width, above⟩, height, above'⟩ := view.sides
  have zero : (0.0 : Float) ≤ 0.0 := by decide
  have x := Draw.between_mem above (by decide) (Scalar.isFinite_width zero above width) stream
  have y := Draw.between_mem above' (by decide) (Scalar.isFinite_width zero above' height)
    (Draw.between 0.0 view.width stream).2
  exact ⟨x.1, x.2, y.1, y.2⟩

/-- Settings under which particles live: an area that is not made smaller, positive lives, and a decay that gives no
life back. -/
structure SwarmSettings.Viable (s : SwarmSettings) : Prop where
  margin : 0.0 ≤ s.margin
  life : s.life.Positive
  burstLife : s.burstLife.Positive
  decay : 0.0 ≤ s.decay
  finiteDecay : Scalar.isFinite s.decay = true

namespace Particle

structure Alive (p : Particle) : Prop where
  positive : 0.0 < p.life
  finite : Scalar.isFinite p.life = true

structure Placed (s : SwarmSettings) (view : Viewport) (p : Particle) : Prop where
  finite : p.position.isFinite = true
  inside : view.contains s.margin p.position = true

variable {s : SwarmSettings} {view : Viewport} {clock : Clock} {velocity : Vec → Vec} {p q : Particle}
  {stream : Stream}

theorem Alive.of_draw {lives : Span} (positive : lives.Positive)
    (drawn : ∃ stream, p.life = (lives.draw stream).1) : p.Alive := by
  obtain ⟨stream, life⟩ := drawn
  obtain ⟨above, finite⟩ := positive.draw stream
  rw [← life] at above finite
  exact ⟨above, finite⟩

theorem alive_spawn (viable : s.Viable) (view : Viewport) (stream : Stream) : (Particle.spawn s view stream).1.Alive :=
  .of_draw viable.life ⟨_, rfl⟩

theorem alive_burst (viable : s.Viable) (center : Vec) (stream : Stream) : (Particle.burst s center stream).1.Alive :=
  .of_draw viable.burstLife ⟨_, rfl⟩

theorem alive_respawn (viable : s.Viable) (view : Viewport) (p : Particle) (stream : Stream) :
    (p.respawn s view stream).1.Alive :=
  .of_draw viable.life ⟨_, rfl⟩

theorem Placed.of_holds (viable : s.Viable) (holds : view.Holds p.position) : p.Placed s view :=
  ⟨holds.isFinite, holds.contains viable.margin⟩

theorem placed_spawn (viable : s.Viable) (view : Viewport) (stream : Stream) :
    (Particle.spawn s view stream).1.Placed s view :=
  .of_holds viable (view.holds_draw stream)

theorem placed_respawn (viable : s.Viable) (view : Viewport) (p : Particle) (stream : Stream) :
    (p.respawn s view stream).1.Placed s view :=
  .of_holds viable (view.holds_draw stream)

/-- A step that is taken leads to a finite place, and so does being put elsewhere. -/
theorem isFinite_position_move (s : SwarmSettings) (view : Viewport) (step : Vec) (p : Particle) (stream : Stream) :
    (p.move s view step stream).1.1.position.isFinite = true := by
  rcases move_eq s view step p stream with ⟨admitted, went⟩ | ⟨-, went⟩
  · obtain ⟨-, -, finite⟩ := admits_iff.mp admitted
    rw [went]
    exact finite
  · rw [went]
    exact (view.holds_draw stream).isFinite

theorem life_move (s : SwarmSettings) (view : Viewport) (step : Vec) (p : Particle) (stream : Stream) :
    (p.move s view step stream).1.1.life = p.life := by
  rcases move_eq s view step p stream with ⟨-, went⟩ | ⟨-, went⟩
  · exact congrArg (·.1.life) went
  · exact congrArg (·.1.life) went

/-- Aging takes some life, and what it leaves, if that is not over, is again some life. -/
theorem Alive.grow (alive : p.Alive) (viable : s.Viable) {step : Float} (forward : Scalar.Unsigned step)
    (left : ¬ (p.grow s step).life ≤ 0.0) : (p.grow s step).Alive := by
  have decay := Scalar.unsigned viable.decay viable.finiteDecay
  have taken := Scalar.mul_nonneg decay forward
  have number := Scalar.isNaN_sub_of_isFinite alive.finite (Scalar.isNaN_mul decay forward)
  have positive := (Scalar.lt_or_le (by decide) number).resolve_right left
  exact ⟨positive, Scalar.isFinite_of_mem (by decide) alive.finite (Scalar.le_of_lt positive) (Scalar.sub_le_self taken number)⟩

/-- One tick keeps a particle alive and puts it in its place. -/
theorem Alive.tick (alive : p.Alive) (viable : s.Viable) (forward : Scalar.Unsigned clock.step)
    (left : (p.tick s view clock velocity stream).1.particle = some q) : q.Alive ∧ q.Placed s view := by
  have same := life_move s view (p.stride s clock (velocity p.position)) p stream
  have finite := isFinite_position_move s view (p.stride s clock (velocity p.position)) p stream
  obtain ⟨inside, ⟨going, rfl⟩ | ⟨-, stream', rfl⟩⟩ := tick_eq_some left
  · have moved : ((p.move s view (p.stride s clock (velocity p.position)) stream).1.1.extendTrail s clock.now).Alive := by
      constructor
      · exact alive.positive.trans_eq same.symm
      · exact (congrArg Scalar.isFinite same).trans alive.finite
    exact ⟨moved.grow viable forward going, finite, inside⟩
  · exact ⟨alive_respawn viable view _ stream', placed_respawn viable view _ stream'⟩

end Particle

namespace Swarm

variable {swarm : Swarm}

theorem unsigned_step (delta : Float) : Scalar.Unsigned (advance delta / timeStep) := by
  obtain ⟨forward, finite⟩ := advance_nonneg delta
  have step : Scalar.Unsigned timeStep := Scalar.unsigned (by decide) (by decide)
  obtain ⟨above, below⟩ := Scalar.div_mem (Scalar.unsigned forward finite) step (by decide)
  exact Scalar.unsigned above (Scalar.isFinite_of_mem (by decide) finite above below)

theorem alive_tick (viable : swarm.settings.Viable) (alive : ∀ p ∈ swarm.particles, p.Alive) (delta : Float)
    (velocity : Vec → Vec) (stream : Stream) :
    ∀ p ∈ (swarm.tick delta velocity stream).1.particles, p.Alive ∧ p.Placed swarm.settings swarm.view := by
  intro p member
  rcases mem_tick member with ⟨old, member', stream', left⟩ | ⟨stream', rfl⟩
  · exact (alive old member').tick viable (unsigned_step delta) left
  · exact ⟨Particle.alive_spawn viable swarm.view stream', Particle.placed_spawn viable swarm.view stream'⟩

theorem Arises.alive (arises : Arises SwarmSettings.Viable swarm) : ∀ p ∈ swarm.particles, p.Alive := by
  induction arises with
  | start view stream viable =>
      intro p member
      obtain ⟨stream', rfl⟩ := mem_reset member
      exact Particle.alive_spawn viable view stream'
  | tick delta velocity stream arises alive =>
      exact fun p member => (alive_tick arises.admits alive delta velocity stream p member).1
  | burst center n stream arises alive =>
      intro p member
      rcases mem_burst member with old | ⟨stream', rfl⟩
      · exact alive p old
      · exact Particle.alive_burst arises.admits center stream'
  | withSettings viable arises alive =>
      intro p member
      obtain ⟨old, member', rfl⟩ := List.mem_map.mp member
      exact ⟨(alive old member').positive, (alive old member').finite⟩
  | reset stream arises alive =>
      intro p member
      obtain ⟨stream', rfl⟩ := mem_reset member
      exact Particle.alive_spawn arises.admits _ stream'

/-- Right after a tick, wherever the run has led, every particle is at a finite place in the area grown by the margin and
has some life left. -/
theorem Arises.vital_after_tick (arises : Arises SwarmSettings.Viable swarm) (delta : Float) (velocity : Vec → Vec)
    (stream : Stream) :
    let next := (swarm.tick delta velocity stream).1
    ∀ p ∈ next.particles, p.position.isFinite = true ∧
      next.view.contains next.settings.margin p.position = true ∧ 0.0 < p.life := by
  intro next p member
  obtain ⟨alive, placed⟩ := alive_tick arises.admits arises.alive delta velocity stream p member
  exact ⟨placed.finite, placed.inside, alive.positive⟩

theorem standard_vital_after_tick :
    ∃ swarm, Arises SwarmSettings.Viable swarm ∧ ∀ delta velocity stream,
      0 < (swarm.tick delta velocity stream).1.size ∧
        ∀ p ∈ (swarm.tick delta velocity stream).1.particles, p.position.isFinite = true ∧
          (swarm.tick delta velocity stream).1.view.contains 100.0 p.position = true ∧ 0.0 < p.life := by
  have viable : SwarmSettings.Viable .standard :=
    ⟨by decide, ⟨by decide, by decide, by decide⟩, ⟨by decide, by decide, by decide⟩, by decide, by decide⟩
  have view : Viewport := ⟨800.0, 600.0, by decide⟩
  obtain ⟨first, started⟩ : ∃ first, first = (start .standard view (.ofSeed 7)).1 := ⟨_, rfl⟩
  -- A burst around no place at all is part of the run.
  obtain ⟨swarm, burst⟩ : ∃ swarm, swarm = (first.burst ⟨0.0 / 0.0, 1.0 / 0.0⟩ 20 (.ofSeed 8)).1 := ⟨_, rfl⟩
  have arises : Arises SwarmSettings.Viable swarm := by
    rw [burst, started]
    exact (Arises.start view _ viable).burst _ _ _
  have settings : swarm.settings = .standard := by rw [burst, settings_burst, started, settings_start]
  refine ⟨swarm, arises, fun delta velocity stream => ⟨?_, ?_⟩⟩
  · obtain ⟨kept, -, size⟩ := exists_size_tick swarm delta velocity stream
    have some : 0 < SwarmSettings.standard.count := by decide
    rw [size, settings]
    exact some.trans_le (Nat.le_max_left _ _)
  · have vital := Arises.vital_after_tick arises delta velocity stream
    simp only [settings_tick, settings] at vital
    exact vital

end Swarm

end DriftField
