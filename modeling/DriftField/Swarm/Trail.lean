import DriftField.Vec
/-!
Trails: the latest places of a particle, oldest first, at most as many as the trail may hold.
-/

namespace DriftField

/-- A place and the time, in milliseconds, at which it was reached. -/
structure Sample where
  position : Vec
  born : Float

structure Trail where
  samples : List Sample
  capacity : Nat

/-- The last `n` items of a list in order of age. -/
def newest {α : Type} (n : Nat) (items : List α) : List α := items.drop (items.length - n)

namespace Trail

def empty (capacity : Nat) : Trail := ⟨[], capacity⟩

def length (t : Trail) : Nat := t.samples.length

def push (t : Trail) (position : Vec) (now : Float) : Trail :=
  { t with samples := newest t.capacity (t.samples ++ [⟨position, now⟩]) }

/-- Drops samples from the oldest on for as long as they are older than `age`. -/
def evict (t : Trail) (now age : Float) : Trail :=
  { t with samples := t.samples.dropWhile fun s => now - s.born > age }

def withCapacity (t : Trail) (capacity : Nat) : Trail := ⟨newest capacity t.samples, capacity⟩

def clear (t : Trail) : Trail := empty t.capacity

end Trail

end DriftField
