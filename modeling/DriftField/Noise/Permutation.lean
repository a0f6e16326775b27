import DriftField.Noise.Coordinate
/-!
Random permutations of the bytes, which give every cell of a lattice its own random byte.
-/

namespace DriftField.Noise

structure Shuffler where
  x : UInt32
  y : UInt32
  z : UInt32
  w : UInt32

namespace Shuffler

def ofSeed (seed : UInt32) : Shuffler := ⟨1, seed, seed, seed⟩

def next (s : Shuffler) : Shuffler :=
  let t := s.x ^^^ (s.x <<< 11)
  ⟨s.y, s.z, s.w, s.w ^^^ (s.w >>> 19) ^^^ t ^^^ (t >>> 8)⟩

def word (s : Shuffler) : Nat := s.w.toNat

/-- The greatest multiple of `n` by a power of two that is no more than a word, less one. -/
def zone (n : Nat) : Nat := (n <<< (31 - n.log2)) - 1

/-- Draws a number below `n`, and draws again, at most `tries` times, when the low half of the product
falls outside the zone in which all numbers are equally likely. -/
def below (n : Nat) : (tries : Nat) → Shuffler → Nat × Shuffler
  | 0, s => (0, s)
  | tries + 1, s =>
      let s := s.next
      let product := s.word * n
      if product % UInt32.size ≤ zone n then (product / UInt32.size, s) else below n tries s

/-- The most tries for one number. Each try succeeds with a chance of at least one half. -/
def greatestTries : Nat := 10000

end Shuffler

structure Permutation where
  table : Vector UInt8 256

namespace Permutation

@[inline] def lookup (t : Permutation) (i : UInt8) : UInt8 := t.table.get ⟨i.toNat, i.toNat_lt⟩

def identity : Permutation := ⟨Vector.ofFn fun i => i.val.toUInt8⟩

/-- Puts in each of the places from `i` down to the second one of the bytes up to that place. -/
def shuffle : (i : Nat) → Shuffler → Permutation → Permutation
  | 0, _, t => t
  | i + 1, s, t =>
      let (j, s) := s.below (i + 2) Shuffler.greatestTries
      shuffle i s ⟨t.table.swapIfInBounds (i + 1) j⟩

def ofSeed (seed : UInt32) : Permutation := shuffle 255 (Shuffler.ofSeed seed) identity

@[inline] def hash {P : Type} [Coordinates P] (t : Permutation) (corner : P) : UInt8 :=
  Coordinates.fold (fun byte c => t.lookup (byte ^^^ lowByte c)) 0 corner

end Permutation

end DriftField.Noise
