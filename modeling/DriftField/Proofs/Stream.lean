import Mathlib
import DriftField.Proofs.Draw
/-!
Streams of random words. A word that is combined with itself moved by some bits comes back when that is done again and
again, and a product with an odd constant is undone by another product. So each step of a stream can be taken back:
streams that differ at one place differ at every place, and no stream falls to zero.
-/

namespace DriftField

namespace Stream

/-! Moves of the bits of a word. -/

def up (k : Nat) (w : UInt64) : UInt64 := ⟨w.toBitVec <<< k⟩

def down (k : Nat) (w : UInt64) : UInt64 := ⟨w.toBitVec >>> k⟩

structure Moves (move : Nat → UInt64 → UInt64) : Prop where
  xor (k : Nat) (v w : UInt64) : move k (v ^^^ w) = move k v ^^^ move k w
  again (j k : Nat) (w : UInt64) : move j (move k w) = move (k + j) w
  out {k : Nat} (far : 64 ≤ k) (w : UInt64) : move k w = 0

theorem moves_up : Moves up where
  xor _ _ _ := congrArg UInt64.ofBitVec (BitVec.shiftLeft_xor_distrib ..)
  again _ _ _ := congrArg UInt64.ofBitVec (BitVec.shiftLeft_add ..).symm
  out far _ := congrArg UInt64.ofBitVec (BitVec.shiftLeft_eq_zero far)

theorem moves_down : Moves down where
  xor _ _ _ := congrArg UInt64.ofBitVec (BitVec.ushiftRight_xor_distrib ..)
  again _ _ _ := congrArg UInt64.ofBitVec (BitVec.shiftRight_add ..).symm
  out far _ := congrArg UInt64.ofBitVec (BitVec.ushiftRight_eq_zero far)

def sheared (move : Nat → UInt64 → UInt64) (k : Nat) (w : UInt64) : UInt64 := w ^^^ move k w

namespace Moves

variable {move : Nat → UInt64 → UInt64} {k : Nat}

theorem sheared_sheared (moves : Moves move) (k : Nat) (w : UInt64) :
    sheared move k (sheared move k w) = sheared move (2 * k) w := by
  unfold sheared
  rw [moves.xor, moves.again, ← Nat.two_mul, UInt64.xor_assoc, ← UInt64.xor_assoc (move k w), UInt64.xor_self,
    UInt64.zero_xor]

theorem iterate_sheared (moves : Moves move) (k n : Nat) : (sheared move k)^[2 ^ n] = sheared move (2 ^ n * k) := by
  induction n with
  | zero => rw [pow_zero, Nat.one_mul, Function.iterate_one]
  | succ n induction =>
      funext w
      rw [pow_succ, Function.iterate_mul, induction]
      exact (moves.sheared_sheared (2 ^ n * k) w).trans (by rw [← Nat.mul_assoc, Nat.mul_comm 2])

/-- After sixty-four times the moved bits are past the end of the word. -/
theorem iterate_sheared_eq_id (moves : Moves move) (positive : 0 < k) (w : UInt64) : (sheared move k)^[64] w = w := by
  have far : 64 ≤ 2 ^ 6 * k := Nat.le_mul_of_pos_right _ positive
  change (sheared move k)^[2 ^ 6] w = w
  rw [moves.iterate_sheared, sheared, moves.out far, UInt64.xor_zero]

theorem bijective (moves : Moves move) (positive : 0 < k) : Function.Bijective (sheared move k) := by
  have returns := moves.iterate_sheared_eq_id positive
  refine Function.bijective_iff_has_inverse.mpr ⟨(sheared move k)^[63], fun w => ?_, fun w => ?_⟩
  · exact (Function.iterate_succ_apply _ 63 w).symm.trans (returns w)
  · exact (Function.iterate_succ_apply' _ 63 w).symm.trans (returns w)

end Moves

theorem mul_bijective {c d : UInt64} (inverse : c * d = 1) : Function.Bijective (· * c) := by
  refine Function.bijective_iff_has_inverse.mpr ⟨(· * d), fun w => ?_, fun w => ?_⟩
  · change w * c * d = w
    rw [UInt64.mul_assoc, inverse, UInt64.mul_one]
  · change w * d * c = w
    rw [UInt64.mul_assoc, UInt64.mul_comm d, inverse, UInt64.mul_one]

theorem add_bijective (c : UInt64) : Function.Bijective (· + c) :=
  Function.bijective_iff_has_inverse.mpr ⟨(· - c), fun w => UInt64.add_sub_cancel w c, fun w => UInt64.sub_add_cancel w c⟩

theorem xor_bijective (c : UInt64) : Function.Bijective (c ^^^ ·) := by
  have involutive : Function.Involutive (c ^^^ ·) := by
    intro w
    change c ^^^ (c ^^^ w) = w
    rw [← UInt64.xor_assoc, UInt64.xor_self, UInt64.zero_xor]
  exact involutive.bijective

theorem step_bijective : Function.Bijective step := by
  have parts : step = sheared up 17 ∘ sheared down 7 ∘ sheared up 13 := rfl
  rw [parts]
  exact (moves_up.bijective (by decide)).comp ((moves_down.bijective (by decide)).comp (moves_up.bijective (by decide)))

theorem scramble_bijective : Function.Bijective scramble := by
  have parts : scramble = sheared down 31 ∘ (· * 0x94D049BB133111EB) ∘ sheared down 27 ∘ (· * 0xBF58476D1CE4E5B9) ∘
      sheared down 30 ∘ (· + golden) := rfl
  have first : (0xBF58476D1CE4E5B9 : UInt64) * 0x96DE1B173F119089 = 1 := by decide
  have second : (0x94D049BB133111EB : UInt64) * 0x319642B2D24D8EC3 = 1 := by decide
  rw [parts]
  exact (moves_down.bijective (by decide)).comp <| (mul_bijective second).comp <|
    (moves_down.bijective (by decide)).comp <| (mul_bijective first).comp <|
    (moves_down.bijective (by decide)).comp (add_bijective golden)

/-! Places of a stream. -/

/-- The word that is drawn after so many others. -/
def wordAt (s : Stream) (n : Nat) : UInt64 := (Draw.word ((fun s => (Draw.word s).2)^[n] s)).1

theorem state_iterate (s : Stream) (n : Nat) : (next^[n] s).state = step^[n] s.state :=
  Function.Semiconj.iterate_right (f := state) (fun _ => rfl) n s

theorem wordAt_eq (s : Stream) (n : Nat) : s.wordAt n = step^[n + 1] s.state := by
  have drawn : s.wordAt n = step (next^[n] s).state := rfl
  rw [drawn, state_iterate, Function.iterate_succ_apply']

/-- A word tells the whole stream. -/
theorem wordAt_inj {s t : Stream} {n : Nat} : s.wordAt n = t.wordAt n ↔ s.state = t.state := by
  rw [wordAt_eq, wordAt_eq]
  exact (step_bijective.injective.iterate (n + 1)).eq_iff

/-- Two different states that start the same stream, as one of them is replaced by the other. -/
def Merge (v w : UInt64) : Prop := v = 0 ∧ w = fallback ∨ v = fallback ∧ w = 0

theorem ofState_inj {v w : UInt64} : (ofState v).state = (ofState w).state ↔ v = w ∨ Merge v w := by
  have apart : fallback ≠ 0 := by decide
  unfold ofState Merge
  dsimp only
  split <;> split <;> grind

/-- The state that a stream taken under a salt starts at, unless it is zero. -/
def salted (s : Stream) (salt : UInt64) : UInt64 := s.next.state ^^^ salt * golden

theorem salted_bijective (s : Stream) : Function.Bijective s.salted := by
  have inverse : golden * 0xF1DE83E19937733D = 1 := by decide
  exact (xor_bijective s.next.state).comp (mul_bijective inverse)

theorem exists_unique_merge {spread : UInt64 → UInt64} (bijective : Function.Bijective spread) :
    ∃! seeds : UInt64 × UInt64, spread seeds.1 = 0 ∧ spread seeds.2 = fallback := by
  obtain ⟨a, zero⟩ := bijective.surjective 0
  obtain ⟨b, full⟩ := bijective.surjective fallback
  refine ⟨(a, b), ⟨zero, full⟩, fun seeds ⟨zero', full'⟩ => ?_⟩
  exact Prod.ext (bijective.injective (zero'.trans zero.symm)) (bijective.injective (full'.trans full.symm))

/-- Streams whose states are spread from two seeds have the same word at a place just when the seeds are the same or
merged. -/
theorem wordAt_ofState_iff {spread : UInt64 → UInt64} (bijective : Function.Bijective spread) (a b : UInt64) (n : Nat) :
    (ofState (spread a)).wordAt n = (ofState (spread b)).wordAt n ↔ a = b ∨ Merge (spread a) (spread b) := by
  rw [wordAt_inj, ofState_inj, bijective.injective.eq_iff]

/-- The steps of a stream and the spreading of seeds lose nothing. So two streams of different seeds, and two streams
that are taken at one point under different salts, differ at every place; only one pair of seeds and one pair of salts
are merged, since zero is replaced. -/
theorem streams_apart :
    Function.Bijective step ∧ Function.Bijective scramble ∧
    (∀ a b n, (ofSeed a).wordAt n = (ofSeed b).wordAt n ↔ a = b ∨ Merge (scramble a) (scramble b)) ∧
    (∃! seeds : UInt64 × UInt64, scramble seeds.1 = 0 ∧ scramble seeds.2 = fallback) ∧
    ∀ s : Stream,
      (∀ a b n, (Draw.fork a s).1.wordAt n = (Draw.fork b s).1.wordAt n ↔ a = b ∨ Merge (s.salted a) (s.salted b)) ∧
      ∃! salts : UInt64 × UInt64, s.salted salts.1 = 0 ∧ s.salted salts.2 = fallback := by
  refine ⟨step_bijective, scramble_bijective, ?_, exists_unique_merge scramble_bijective, fun s => ⟨?_, ?_⟩⟩
  · exact wordAt_ofState_iff scramble_bijective
  · exact wordAt_ofState_iff s.salted_bijective
  · exact exists_unique_merge s.salted_bijective

-- the seeds that are merged
example : scramble 0x61C8864680B583EB = 0 ∧ scramble 0xA1875FE90E873FF7 = fallback := by decide

/-! Streams that come from seeds. -/

/-- The streams that are started, and those that are left after a draw or taken by one. -/
inductive Obtained : Stream → Prop
  | ofState (seed : UInt64) : Obtained (ofState seed)
  | ofSeed (seed : UInt64) : Obtained (ofSeed seed)
  | afterWord {s : Stream} (obtained : Obtained s) : Obtained (Draw.word s).2
  | afterUnit {s : Stream} (obtained : Obtained s) : Obtained (Draw.unit s).2
  | afterBetween {s : Stream} (low high : Float) (obtained : Obtained s) : Obtained (Draw.between low high s).2
  | afterBelow {s : Stream} {n : Nat} (positive : 0 < n) (obtained : Obtained s) : Obtained (Draw.below? n s).2
  | afterIndex {s : Stream} {n : Nat} (positive : 0 < n) (obtained : Obtained s) : Obtained (Draw.index n positive s).2
  | afterFork {s : Stream} (salt : UInt64) (obtained : Obtained s) : Obtained (Draw.fork salt s).2
  | forked {s : Stream} (salt : UInt64) (obtained : Obtained s) : Obtained (Draw.fork salt s).1

theorem state_ofState_ne_zero (seed : UInt64) : (ofState seed).state ≠ 0 := by
  have apart : fallback ≠ 0 := by decide
  unfold ofState
  dsimp only
  split
  · exact apart
  · assumption

theorem step_ne_zero {w : UInt64} (nonzero : w ≠ 0) : step w ≠ 0 := by
  have fixed : step 0 = 0 := rfl
  rw [← fixed]
  exact step_bijective.injective.ne nonzero

theorem Obtained.state_ne_zero {s : Stream} (obtained : Obtained s) : s.state ≠ 0 := by
  induction obtained with
  | ofState seed => exact state_ofState_ne_zero seed
  | ofSeed seed => exact state_ofState_ne_zero (scramble seed)
  | forked salt _ _ => exact state_ofState_ne_zero _
  | afterWord _ nonzero | afterUnit _ nonzero | afterBetween _ _ _ nonzero | afterBelow _ _ nonzero
  | afterIndex _ _ nonzero | afterFork _ _ nonzero => exact step_ne_zero nonzero

/-- A stream that comes from seeds never stands at zero and never gives the word zero. A drawn fraction is a whole number
of parts of `2 ^ 53`, fewer than all of them, and a number drawn below another one is below it. -/
theorem Obtained.draws_in_range {s : Stream} (obtained : Obtained s) :
    s.state ≠ 0 ∧ (Draw.word s).1 ≠ 0 ∧
    (∃ k : Nat, k < 2 ^ 53 ∧ Scalar.isFinite (Draw.unit s).1 = true ∧ Scalar.value (Draw.unit s).1 = k / 2 ^ 53) ∧
    ∀ n, 0 < n → ∃ r < n, (Draw.below? n s).1 = some r := by
  have nonzero := obtained.state_ne_zero
  refine ⟨nonzero, step_ne_zero nonzero, ?_, fun n positive => ?_⟩
  · have bound := (step s.state).toNat_lt
    refine ⟨(step s.state).toNat / 2 ^ 11, by omega, ?_, ?_⟩
    · exact (Draw.unsigned_unitOfWord (step s.state)).1.isFinite
    · exact Draw.value_unitOfWord (step s.state)
  · exact ⟨(step s.state).toNat % n, Nat.mod_lt _ positive, if_neg positive.ne'⟩

def forkedFromZero : Stream := (Draw.fork 5 (Draw.unit (ofState 0)).2).1

theorem forked_draws_in_range :
    forkedFromZero.Obtained ∧ forkedFromZero.state ≠ 0 ∧ (Draw.word forkedFromZero).1 ≠ 0 ∧
    (∃ k : Nat, k < 2 ^ 53 ∧ Scalar.value (Draw.unit forkedFromZero).1 = k / 2 ^ 53) ∧
    ∃ r < 6, (Draw.below? 6 forkedFromZero).1 = some r := by
  have obtained : forkedFromZero.Obtained := .forked 5 (.afterUnit (.ofState 0))
  obtain ⟨standing, nonzero, ⟨k, bound, -, value⟩, below⟩ := obtained.draws_in_range
  exact ⟨obtained, standing, nonzero, ⟨k, bound, value⟩, below 6 (by decide)⟩

end Stream

end DriftField
