import Mathlib
import DriftField.Proofs.Swarm.Trails
/-!
A trail is a bounded history. Whatever is done to it, and in whatever order, it holds the latest of the samples pushed
since it was last cleared, as many as it may hold at most. Pushing a sample and changing the capacity drop no more than
they have to; and as long as the times of pushing do not decrease, eviction drops every sample that is too old, and no
other.
-/

namespace DriftField

namespace Trail

inductive Change where
  | push (position : Vec) (now : Float)
  | evict (now age : Float)
  | withCapacity (capacity : Nat)
  | clear

namespace Change

def apply (t : Trail) : Change → Trail
  | push position now => t.push position now
  | evict now age => t.evict now age
  | withCapacity capacity => t.withCapacity capacity
  | clear => t.clear

/-- The samples pushed since the last clearing, in their order. -/
def record (pushed : List Sample) : Change → List Sample
  | push position now => pushed ++ [⟨position, now⟩]
  | clear => []
  | evict _ _ | withCapacity _ => pushed

def limit (capacity : Nat) : Change → Nat
  | withCapacity capacity => capacity
  | push _ _ | evict _ _ | clear => capacity

end Change

def after (t : Trail) (changes : List Change) : Trail := changes.foldl Change.apply t

def pushed (changes : List Change) : List Sample := changes.foldl Change.record []

/-- A trail holds the latest samples of a history, no more than its capacity. -/
structure Remembers (history : List Sample) (capacity : Nat) (t : Trail) : Prop where
  latest : t.samples <:+ history
  capacity : t.capacity = capacity
  short : t.length ≤ t.capacity

variable {t : Trail} {history : List Sample} {capacity : Nat}

theorem remembers_empty (capacity : Nat) : Remembers [] capacity (empty capacity) :=
  ⟨List.suffix_rfl, rfl, Nat.zero_le _⟩

theorem Remembers.change (remembers : Remembers history capacity t) (change : Change) :
    Remembers (change.record history) (change.limit capacity) (change.apply t) := by
  cases change with
  | push position now =>
      obtain ⟨dropped, latest⟩ := remembers.latest
      have extended : t.samples ++ [⟨position, now⟩] <:+ history ++ [⟨position, now⟩] :=
        ⟨dropped, by rw [← latest, List.append_assoc]⟩
      exact ⟨(newest_suffix _ _).trans extended, remembers.capacity, length_newest_le _ _⟩
  | evict now age =>
      have suffix : (t.evict now age).samples <:+ t.samples := List.dropWhile_suffix _
      exact ⟨suffix.trans remembers.latest, remembers.capacity, suffix.length_le.trans remembers.short⟩
  | withCapacity n => exact ⟨(newest_suffix _ _).trans remembers.latest, rfl, length_newest_le _ _⟩
  | clear => exact ⟨List.suffix_rfl, remembers.capacity, Nat.zero_le _⟩

theorem Remembers.after (remembers : Remembers history capacity t) (changes : List Change) :
    Remembers (changes.foldl Change.record history) (changes.foldl Change.limit capacity) (t.after changes) := by
  induction changes generalizing t history capacity with
  | nil => exact remembers
  | cons change changes induction => exact induction (remembers.change change)

theorem length_push (t : Trail) (position : Vec) (now : Float) :
    (t.push position now).length = min t.capacity (t.length + 1) := by
  change (newest t.capacity (t.samples ++ [_])).length = _
  rw [length_newest, List.length_append, List.length_singleton]
  rfl

theorem length_withCapacity (t : Trail) (n : Nat) : (t.withCapacity n).length = min n t.length := length_newest _ _

/-- After any changes to an empty trail it holds the latest of the samples pushed since it was last cleared, in their
order and no more than the capacity last set. A further push and a further capacity drop the oldest samples only, and
of them no more than the capacity asks for. If the times of pushing do not decrease, eviction keeps exactly the samples
that are not too old. -/
theorem remembers_latest (capacity : Nat) (changes : List Change) :
    let t := (empty capacity).after changes
    t.samples <:+ pushed changes ∧
    t.capacity = changes.foldl Change.limit capacity ∧
    t.length ≤ t.capacity ∧
    (∀ position now, (t.push position now).samples <:+ t.samples ++ [⟨position, now⟩] ∧
      (t.push position now).length = min t.capacity (t.length + 1)) ∧
    (∀ n, (t.withCapacity n).samples <:+ t.samples ∧ (t.withCapacity n).length = min n t.length) ∧
    ((pushed changes).Pairwise (·.born ≤ ·.born) → ∀ now age,
      (t.evict now age).samples = t.samples.filter fun s => ¬ now - s.born > age) := by
  intro t
  have remembers : Remembers (pushed changes) _ t := (remembers_empty capacity).after changes
  refine ⟨remembers.latest, remembers.capacity, remembers.short, fun position now => ?_, fun n => ?_,
    fun ordered => ?_⟩
  · exact ⟨newest_suffix _ _, length_push t position now⟩
  · exact ⟨newest_suffix _ _, length_withCapacity t n⟩
  · exact evict_eq_filter (ordered.sublist remembers.latest.sublist)

def regrown : List Change :=
  [.push ⟨0.0, 0.0⟩ 0.0, .push ⟨1.0, 0.0⟩ 100.0, .withCapacity 1, .withCapacity 4, .push ⟨2.0, 0.0⟩ 200.0,
    .evict 250.0 200.0, .push ⟨3.0, 0.0⟩ 300.0, .push ⟨4.0, 0.0⟩ 300.0]

theorem regrown_remembers_latest :
    let t := (empty 2).after regrown
    t.samples <:+ pushed regrown ∧ t.length = 4 ∧ (pushed regrown).length = 5 ∧
      (pushed regrown).Pairwise (·.born ≤ ·.born) ∧
      (t.evict 450.0 200.0).samples = t.samples.filter (fun s => ¬ 450.0 - s.born > 200.0) ∧
      (t.evict 450.0 200.0).length = 2 := by
  intro t
  obtain ⟨latest, -, -, -, -, evicts⟩ := remembers_latest 2 regrown
  have ordered : (pushed regrown).Pairwise (·.born ≤ ·.born) := by decide +kernel
  exact ⟨latest, by decide +kernel, by decide +kernel, ordered, evicts ordered 450.0 200.0, by decide +kernel⟩

end Trail

end DriftField
