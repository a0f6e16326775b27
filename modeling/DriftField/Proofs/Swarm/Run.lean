import Mathlib
import DriftField.Proofs.Swarm.Population
/-!
Runs of a swarm, and where the particles of each operation come from: every particle after an operation is one that the
operation kept, or is drawn afresh.
-/

namespace DriftField

theorem Draw.exists_of_mem_mapM {α β : Type} {draw : α → Draw β} {items : List α} {stream : Stream} {b : β}
    (member : b ∈ (items.mapM draw stream).1) : ∃ a ∈ items, ∃ stream, b = (draw a stream).1 := by
  induction items generalizing stream with
  | nil => cases member
  | cons a items induction =>
      rw [List.mapM_cons] at member
      rcases List.mem_cons.mp member with rfl | later
      · exact ⟨a, List.mem_cons_self, stream, rfl⟩
      · obtain ⟨a', member', drawn⟩ := induction later
        exact ⟨a', List.mem_cons_of_mem a member', drawn⟩

theorem newest_suffix {α : Type} (n : Nat) (items : List α) : newest n items <:+ items := List.drop_suffix _ _

theorem newest_sublist {α : Type} (n : Nat) (items : List α) : (newest n items).Sublist items :=
  (newest_suffix n items).sublist

theorem length_newest_le {α : Type} (n : Nat) (items : List α) : (newest n items).length ≤ n := by
  rw [length_newest]
  exact Nat.min_le_left _ _

namespace Particle

variable {s : SwarmSettings} {view : Viewport} {clock : Clock} {velocity : Vec → Vec} {p q : Particle}
  {stream : Stream}

theorem admits_iff {step : Vec} :
    p.admits s step = true ↔
      ¬ step.x.abs > s.greatestStep ∧ ¬ step.y.abs > s.greatestStep ∧ (p.position + step).isFinite = true := by
  unfold admits
  simp only [Bool.not_eq_true', Bool.or_eq_false_iff, Bool.not_eq_false', decide_eq_false_iff_not, and_assoc]

/-- A move takes the step, or puts the particle somewhere in view and forgets its trail. -/
theorem move_eq (s : SwarmSettings) (view : Viewport) (step : Vec) (p : Particle) (stream : Stream) :
    p.admits s step = true ∧ (p.move s view step stream).1 = ({ p with position := p.position + step }, false) ∨
      p.admits s step = false ∧ (p.move s view step stream).1 =
        ({ p with position := (view.draw stream).1, trail := p.trail.clear }, true) := by
  unfold move
  cases admitted : p.admits s step with
  | true => exact .inl ⟨rfl, rfl⟩
  | false => exact .inr ⟨rfl, rfl⟩

/-- A particle that a tick leaves is the one that moved, with a longer trail and more age, or a new life of it, and the
outcome tells which. -/
theorem outcome_tick {relocated respawned : Bool}
    (left : (p.tick s view clock velocity stream).1 = ⟨some q, relocated, respawned⟩) :
    let moved := (p.move s view (p.stride s clock (velocity p.position)) stream).1
    let grown := (moved.1.extendTrail s clock.now).grow s clock.step
    moved.2 = relocated ∧ view.contains s.margin moved.1.position = true ∧
      (¬ grown.life ≤ 0.0 ∧ respawned = false ∧ q = grown ∨
        grown.life ≤ 0.0 ∧ respawned = true ∧ ∃ stream, q = (grown.respawn s view stream).1) := by
  unfold tick at left
  simp only [bind, StateT.bind] at left
  split at left
  next result rest moving =>
  have same : (p.move s view (p.stride s clock (velocity p.position)) stream).1 = result := congrArg Prod.fst moving
  obtain ⟨moved, relocated'⟩ := result
  rw [same]
  simp only at left ⊢
  generalize (moved.extendTrail s clock.now).grow s clock.step = grown at left ⊢
  cases inside : view.contains s.margin moved.position with
  | false =>
      rw [inside] at left
      cases left
  | true =>
      rw [inside, if_neg (by decide)] at left
      by_cases spent : grown.life ≤ 0.0
      · rw [if_pos spent] at left
        cases left
        exact ⟨rfl, rfl, .inr ⟨spent, rfl, _, rfl⟩⟩
      · rw [if_neg spent] at left
        cases left
        exact ⟨rfl, rfl, .inl ⟨spent, rfl, rfl⟩⟩

theorem tick_eq_some (left : (p.tick s view clock velocity stream).1.particle = some q) :
    let moved := (p.move s view (p.stride s clock (velocity p.position)) stream).1.1
    let grown := (moved.extendTrail s clock.now).grow s clock.step
    view.contains s.margin moved.position = true ∧
      (¬ grown.life ≤ 0.0 ∧ q = grown ∨
        grown.life ≤ 0.0 ∧ ∃ stream, q = (grown.respawn s view stream).1) := by
  cases outcome : (p.tick s view clock velocity stream).1 with
  | mk particle relocated respawned =>
      rw [outcome] at left
      cases left
      obtain ⟨-, inside, ⟨going, -, same⟩ | ⟨spent, -, renewed⟩⟩ := outcome_tick outcome
      · exact ⟨inside, .inl ⟨going, same⟩⟩
      · exact ⟨inside, .inr ⟨spent, renewed⟩⟩

end Particle

namespace Swarm

theorem exists_of_mem_drawMany {α : Type} {n : Nat} {draw : Draw α} {stream : Stream} {a : α}
    (member : a ∈ (drawMany n draw stream).1) : ∃ stream, a = (draw stream).1 := by
  obtain ⟨draw', member', stream', drawn⟩ := Draw.exists_of_mem_mapM member
  rw [List.eq_of_mem_replicate member'] at drawn
  exact ⟨stream', drawn⟩

variable {s : SwarmSettings} {view : Viewport} {swarm : Swarm} {p : Particle} {stream : Stream}

theorem mem_replenish {particles : List Particle} (member : p ∈ (replenish s view particles stream).1.1) :
    p ∈ particles ∨ ∃ stream, p = (Particle.spawn s view stream).1 := by
  change p ∈ particles ++ (drawMany _ _ stream).1 at member
  exact (List.mem_append.mp member).imp id exists_of_mem_drawMany

theorem mem_reset (member : p ∈ (swarm.reset stream).1.particles) :
    ∃ stream, p = (Particle.spawn swarm.settings swarm.view stream).1 := by
  have drawn : p ∈ [] ∨ ∃ stream, p = (Particle.spawn swarm.settings swarm.view stream).1 := mem_replenish member
  exact drawn.resolve_left List.not_mem_nil

theorem mem_burst {center : Vec} {n : Nat} (member : p ∈ (swarm.burst center n stream).1.particles) :
    p ∈ swarm.particles ∨ ∃ stream, p = (Particle.burst swarm.settings center stream).1 := by
  have all : p ∈ swarm.particles ++ (drawMany n (Particle.burst swarm.settings center) stream).1 := by
    change p ∈ ite _ _ _ at member
    split at member
    · exact (newest_sublist _ _).subset member
    · exact member
  exact (List.mem_append.mp all).imp id exists_of_mem_drawMany

theorem mem_tick {delta : Float} {velocity : Vec → Vec}
    (member : p ∈ (swarm.tick delta velocity stream).1.particles) :
    let clock : Particle.Clock := ⟨swarm.clock + advance delta, advance delta / timeStep⟩
    (∃ old ∈ swarm.particles, ∃ stream,
        (old.tick swarm.settings swarm.view clock velocity stream).1.particle = some p) ∨
      ∃ stream, p = (Particle.spawn swarm.settings swarm.view stream).1 := by
  intro clock
  refine (mem_replenish member).imp (fun kept => ?_) id
  obtain ⟨outcome, swept, left⟩ := List.mem_filterMap.mp ((newest_sublist _ _).subset kept)
  obtain ⟨old, member', stream', rfl⟩ := Draw.exists_of_mem_mapM swept
  exact ⟨old, member', stream', left⟩

/-- The swarms of a run under admitted settings, each operation drawing from any stream. -/
inductive Arises (admitted : SwarmSettings → Prop) : Swarm → Prop
  | start {s : SwarmSettings} (view : Viewport) (stream : Stream) (admits : admitted s) :
      Arises admitted (start s view stream).1
  | tick {swarm : Swarm} (delta : Float) (velocity : Vec → Vec) (stream : Stream)
      (arises : Arises admitted swarm) : Arises admitted (swarm.tick delta velocity stream).1
  | burst {swarm : Swarm} (center : Vec) (n : Nat) (stream : Stream)
      (arises : Arises admitted swarm) : Arises admitted (swarm.burst center n stream).1
  | withSettings {swarm : Swarm} {s : SwarmSettings} (admits : admitted s)
      (arises : Arises admitted swarm) : Arises admitted (swarm.withSettings s)
  | reset {swarm : Swarm} (stream : Stream) (arises : Arises admitted swarm) :
      Arises admitted (swarm.reset stream).1

theorem Arises.admits {admitted : SwarmSettings → Prop} (arises : Arises admitted swarm) :
    admitted swarm.settings := by
  induction arises with
  | start view stream admits => exact admits
  | tick delta velocity stream arises admits => exact admits
  | burst center n stream arises admits => exact admits
  | withSettings admits arises => exact admits
  | reset stream arises admits => exact admits

end Swarm

end DriftField
