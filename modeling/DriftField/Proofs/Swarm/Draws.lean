import Mathlib
import DriftField.Proofs.Swarm.Run
/-!
The words that the operations of a swarm draw. A particle takes two words to be put elsewhere and seven to come into
being or begin a new life, so what has been counted tells how far the stream has advanced.
-/

namespace DriftField

namespace Draw

variable {α β : Type} {n : Nat}

/-- Wherever it starts, the draw takes so many words. -/
def Takes (n : Nat) (draw : Draw α) : Prop := ∀ stream, (draw stream).2 = Stream.next^[n] stream

theorem mapM_cons_run (draw : α → Draw β) (a : α) (items : List α) (stream : Stream) :
    (a :: items).mapM draw stream =
      ((draw a stream).1 :: (items.mapM draw (draw a stream).2).1, (items.mapM draw (draw a stream).2).2) := by
  rw [List.mapM_cons]
  rfl

/-- When the results tell how many words were taken for them, each item starts as many words on as the ones before it
took together. -/
theorem mapM_words {draw : α → Draw β} {cost : β → Nat} {items : List α}
    (takes : ∀ a ∈ items, ∀ stream, (draw a stream).2 = Stream.next^[cost (draw a stream).1] stream) (stream : Stream) :
    let results := (items.mapM draw stream).1
    (items.mapM draw stream).2 = Stream.next^[(results.map cost).sum] stream ∧
      ∀ i (within : i < items.length),
        results[i]? = some (draw items[i] (Stream.next^[((results.take i).map cost).sum] stream)).1 := by
  induction items generalizing stream with
  | nil => exact ⟨rfl, nofun⟩
  | cons a items induction =>
      obtain ⟨first, later⟩ := List.forall_mem_cons.mp takes
      obtain ⟨whole, each⟩ := induction later (draw a stream).2
      rw [mapM_cons_run]
      generalize items.mapM draw (draw a stream).2 = rest at whole each
      rw [first, ← Function.iterate_add_apply, Nat.add_comm] at whole
      refine ⟨whole, fun i within => ?_⟩
      cases i with
      | zero => rfl
      | succ i =>
          refine (each i (Nat.lt_of_succ_lt_succ within)).trans ?_
          rw [first, ← Function.iterate_add_apply, Nat.add_comm]
          rfl

/-- Values drawn one after another, each with so many words. -/
def successive (words : Nat) (draw : Draw α) (count : Nat) (stream : Stream) : List α :=
  (List.range count).map fun i => (draw (Stream.next^[words * i] stream)).1

@[simp] theorem length_successive (words : Nat) (draw : Draw α) (count : Nat) (stream : Stream) :
    (successive words draw count stream).length = count := by
  unfold successive
  rw [List.length_map, List.length_range]

theorem exists_of_mem_successive {words count : Nat} {draw : Draw α} {stream : Stream} {a : α}
    (member : a ∈ successive words draw count stream) : ∃ stream, a = (draw stream).1 := by
  obtain ⟨i, -, rfl⟩ := List.mem_map.mp member
  exact ⟨_, rfl⟩

theorem Takes.drawMany {draw : Draw α} (takes : Takes n draw) (count : Nat) (stream : Stream) :
    Swarm.drawMany count draw stream = (successive n draw count stream, Stream.next^[n * count] stream) := by
  unfold successive
  induction count generalizing stream with
  | zero => rfl
  | succ count induction =>
      have later (i : Nat) : Stream.next^[n * i] (draw stream).2 = Stream.next^[n * (i + 1)] stream := by
        rw [takes, ← Function.iterate_add_apply, Nat.mul_succ]
      have run : Swarm.drawMany (count + 1) draw stream =
          ((draw stream).1 :: (Swarm.drawMany count draw (draw stream).2).1,
            (Swarm.drawMany count draw (draw stream).2).2) := mapM_cons_run id draw _ stream
      rw [run, induction, List.range_succ_eq_map, List.map_cons, List.map_map]
      simp only [later, Nat.mul_zero, Function.iterate_zero, id_eq, Function.comp_def, Nat.succ_eq_add_one]

end Draw

open Draw

namespace Particle

theorem takes_spawn (s : SwarmSettings) (view : Viewport) : Takes 7 (spawn s view) := fun _ => rfl

theorem takes_burst (s : SwarmSettings) (center : Vec) : Takes 7 (burst s center) := fun _ => rfl

theorem takes_respawn (s : SwarmSettings) (view : Viewport) (p : Particle) : Takes 7 (p.respawn s view) := fun _ => rfl

theorem takes_relocate (view : Viewport) (p : Particle) : Takes 2 (p.relocate view) := fun _ => rfl

/-- The words that were taken for what a tick has made of a particle. -/
def Outcome.words (outcome : Outcome) : Nat := 2 * outcome.relocated.toNat + 7 * outcome.respawned.toNat

theorem sum_words (outcomes : List Outcome) :
    (outcomes.map Outcome.words).sum = 2 * outcomes.countP (·.relocated) + 7 * outcomes.countP (·.respawned) := by
  induction outcomes with
  | nil => rfl
  | cons outcome outcomes induction =>
      rw [List.map_cons, List.sum_cons, induction, List.countP_cons, List.countP_cons, Outcome.words]
      cases outcome.relocated <;> cases outcome.respawned <;> simp <;> omega

variable (s : SwarmSettings) (view : Viewport) (clock : Clock) (velocity : Vec → Vec) (p : Particle) (stream : Stream)

theorem move_words (step : Vec) :
    (p.move s view step stream).2 = Stream.next^[2 * (p.move s view step stream).1.2.toNat] stream := by
  unfold move
  cases p.admits s step with
  | true => rfl
  | false => exact takes_relocate view p stream

/-- A particle that begins a new life is not removed, and the outcome of a tick tells the words that it took. -/
theorem tick_words :
    let outcome := (p.tick s view clock velocity stream).1
    (outcome.respawned = true → outcome.particle.isSome = true) ∧
      (p.tick s view clock velocity stream).2 = Stream.next^[outcome.words] stream := by
  have moving := move_words s view p stream (p.stride s clock (velocity p.position))
  unfold tick
  simp only [bind, StateT.bind]
  generalize p.move s view (p.stride s clock (velocity p.position)) stream = moved at moving
  obtain ⟨⟨moved, relocated⟩, rest⟩ := moved
  dsimp only at moving ⊢
  subst moving
  split
  · exact ⟨nofun, rfl⟩
  split
  · refine ⟨fun _ => rfl, ?_⟩
    change (respawn s view ((moved.extendTrail s clock.now).grow s clock.step) _).2 = Stream.next^[2 * relocated.toNat + 7] stream
    rw [takes_respawn, Nat.add_comm, Function.iterate_add_apply]
  · exact ⟨nofun, rfl⟩

end Particle

end DriftField
