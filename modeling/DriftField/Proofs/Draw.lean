import Mathlib
import DriftField.Proofs.Scalar.Part
import DriftField.Proofs.Scalar.Quotient
import DriftField.Stream
/-!
Drawn numbers. The upper 53 bits of a word as a whole number, and the fraction that they stand for, are both exact, so a
draw lies between zero and one, and a draw between two numbers lies between them.
-/

namespace DriftField

namespace Scalar

open Float.Model Float.Model.UnpackedFloat

variable {v : Float}

def value (v : Float) : ℚ := weight v.toModel.unpack / 2 ^ 1074

theorem Unsigned.value_eq (unsigned : Unsigned v) : value v = magnitude v / 2 ^ 1074 := by
  unfold value
  rw [unsigned.weight_eq, Int.cast_natCast]

theorem unsigned_of_rank {m : Nat} {e : Int} (number : v.isNaN = false) (canonical : Canonical m e)
    (positive : 0 < m) (value : rank v = (e + 1074) * 2 ^ 52 + m) :
    Unsigned v ∧ magnitude v = m * 2 ^ (e + 1074).toNat := by
  have above := canonical.place_pos positive
  have below := canonical.place_lt
  have form : IsNumber (.finite .positive m e positive) := canonical
  have weight_eq := weight_eq_of_place_eq (isNumber number) form value
  constructor
  · apply unsigned
    · rw [zero_le_iff number, value]
      exact above.le
    · apply isFinite_of_rank_lt number
      rw [value, abs_of_pos above]
      exact below
  · unfold magnitude
    rw [weight_eq, weight_finite, Int.natAbs_natCast]

theorem packed_whole {n : Nat} (positive : 0 < n) (short : n < 2 ^ 53) :
    ∃ m e, Canonical m e ∧ 0 < m ∧ -52 ≤ e ∧ m * 2 ^ (e + 1074).toNat = n * 2 ^ 1074 ∧
      Packed (UnpackedFloat.normalize Format.binary64 n 0 .positive) ((e + 1074) * 2 ^ 52 + m) := by
  have log : n.log2 < 53 := (Nat.log2_lt positive.ne').mpr short
  have scaled : n * 2 ^ (52 - n.log2) ≠ 0 := by positivity
  have full := (Nat.log2_eq_iff scaled).mp ((log2_mul_pow positive.ne' _).trans (by omega : _ = 52))
  have canonical : Canonical (n * 2 ^ (52 - n.log2)) (n.log2 - 52) := ⟨full.2, by omega, by omega, .inr full.1⟩
  obtain ⟨k, places⟩ : ∃ k, k = 1074 := ⟨_, rfl⟩
  have split : n * 2 ^ (52 - n.log2) * 2 ^ (n.log2 + 1022) = n * 2 ^ k := by
    rw [Nat.mul_assoc, ← pow_add]
    congr 2
    omega
  have exponent : ((n.log2 : Int) - 52 + 1074).toNat = n.log2 + 1022 := by omega
  have packed : Packed (UnpackedFloat.normalize Format.binary64 n 0 .positive) (rounded (n * 2 ^ k)) := by
    rw [places]
    exact packed_normalize n (by decide)
  have value : rounded (n * 2 ^ k) = ((n.log2 : Int) - 52 + 1074) * 2 ^ 52 + (n * 2 ^ (52 - n.log2) : Nat) := by
    have nearest := nearestRank_exact full.2 (.inr full.1) (k := n.log2 + 1022)
    have same : ((n.log2 + 1022 : Nat) : Int) = n.log2 - 52 + 1074 := by omega
    rw [split, same, min_eq_left canonical.place_lt.le] at nearest
    rw [← nearest, ← Nat.cast_two, ← Nat.cast_pow, ← Nat.cast_mul]
    rfl
  refine ⟨_, _, canonical, Nat.pos_of_ne_zero scaled, by omega, ?_, ?_⟩
  · rw [exponent, split, places]
  · rwa [value] at packed

theorem unsigned_toFloat {w : UInt64} (short : w.toNat < 2 ^ 53) :
    Unsigned w.toFloat ∧ magnitude w.toFloat = w.toNat * 2 ^ 1074 := by
  rcases Nat.eq_zero_or_pos w.toNat with zero | positive
  · have none : w = 0 := UInt64.toNat_inj.mp zero
    have value : (0 : UInt64).toFloat.toModel.unpack = .zero .positive := rfl
    rw [zero, none, Unsigned.magnitude_zero value, Nat.zero_mul]
    exact ⟨.zero _ value, rfl⟩
  · obtain ⟨m, e, canonical, some, -, size, packed⟩ := packed_whole positive short
    have number : w.toFloat.isNaN = false := packed.number.isNaN
    rw [← size]
    exact unsigned_of_rank number canonical some packed.place_eq

end Scalar

open Scalar

namespace Draw

theorem toNat_upper (w : UInt64) : (w >>> 11).toNat = w.toNat / 2 ^ 11 := by
  rw [UInt64.toNat_shiftRight]
  exact Nat.shiftRight_eq_div_pow _ _

theorem unsigned_unitOfWord (w : UInt64) :
    Unsigned (unitOfWord w) ∧ magnitude (unitOfWord w) = w.toNat / 2 ^ 11 * 2 ^ 1021 := by
  have short : (w >>> 11).toNat < 2 ^ 53 := by
    have bound := w.toNat_lt
    rw [toNat_upper]
    omega
  rw [← toNat_upper]
  unfold unitOfWord
  rcases Nat.eq_zero_or_pos (w >>> 11).toNat with zero | positive
  · have none : w >>> 11 = 0 := UInt64.toNat_inj.mp zero
    have value : ((0 : UInt64).toFloat / 9007199254740992.0).toModel.unpack = .zero .positive := rfl
    rw [zero, none, Unsigned.magnitude_zero value, Nat.zero_mul]
    exact ⟨.zero _ value, rfl⟩
  · obtain ⟨m, e, canonical, some, least, size, -⟩ := packed_whole positive short
    obtain ⟨whole, size'⟩ := unsigned_toFloat short
    have value : (9007199254740992.0 : Float).toModel.unpack = .finite .positive (2 ^ 52) 1 (by decide) := by rfl
    have divisor : Unsigned 9007199254740992.0 := unsigned (by decide) (by decide)
    have divisor' : magnitude 9007199254740992.0 = 2 ^ 52 * 2 ^ (1 + 1074 : Int).toNat := Unsigned.magnitude_finite value
    have canonical' : Canonical m (e - 53) :=
      ⟨canonical.short, by omega, by have := canonical.greatest; omega, .inr (canonical.long.resolve_left (by omega))⟩
    have exponent : (e - 53 + 1074).toNat + 53 = (e + 1074).toNat := by omega
    have scaled : m * 2 ^ (e - 53 + 1074).toNat * 2 ^ 53 = (w >>> 11).toNat * 2 ^ 1021 * 2 ^ 53 := by
      rw [Nat.mul_assoc, ← pow_add, exponent, size, Nat.mul_assoc, ← pow_add]
    have exact : magnitude (w >>> 11).toFloat * 2 ^ 1074 =
        m * 2 ^ (e - 53 + 1074).toNat * magnitude 9007199254740992.0 := by
      rw [size', ← size, divisor', ← pow_add, ← exponent, pow_add, show 52 + (1 + 1074 : Int).toNat = 53 + 1074 from rfl,
        pow_add, ← Nat.mul_assoc, ← Nat.mul_assoc]
    obtain ⟨number, rank_eq⟩ := rank_div_of_eq whole divisor canonical' some (by rw [divisor']; positivity) exact
    obtain ⟨unit, size''⟩ := unsigned_of_rank number canonical' some rank_eq
    exact ⟨unit, by rw [size'']; exact Nat.eq_of_mul_eq_mul_right (by positivity) scaled⟩

theorem value_unitOfWord (w : UInt64) : value (unitOfWord w) = (w.toNat / 2 ^ 11 : Nat) / 2 ^ 53 := by
  obtain ⟨unit, size⟩ := unsigned_unitOfWord w
  have parts : (2 : ℚ) ^ 1074 = 2 ^ 53 * 2 ^ 1021 := pow_add 2 53 1021
  rw [unit.value_eq, size, Nat.cast_mul, Nat.cast_pow, Nat.cast_two, parts]
  exact mul_div_mul_right _ _ (pow_ne_zero 1021 two_ne_zero)

theorem unit_mem (w : UInt64) : 0.0 ≤ unitOfWord w ∧ unitOfWord w < 1.0 := by
  obtain ⟨unit, size⟩ := unsigned_unitOfWord w
  have bound := w.toNat_lt
  have small : w.toNat / 2 ^ 11 < 2 ^ 53 := by omega
  rw [le_iff_magnitude unsigned_zero unit, lt_iff_magnitude unit unsigned_one, magnitude_zero, size, magnitude_one]
  refine ⟨Nat.zero_le _, ?_⟩
  calc
    w.toNat / 2 ^ 11 * 2 ^ 1021 < 2 ^ 53 * 2 ^ 1021 := Nat.mul_lt_mul_of_pos_right small (by positivity)
    _ = 2 ^ 1074 := by rw [← pow_add]

variable {low high : Float}

theorem between_mem (order : low ≤ high) (first : isFinite low = true) (finite : isFinite (high - low) = true)
    (stream : Stream) : low ≤ (between low high stream).1 ∧ (between low high stream).1 ≤ high :=
  add_part_mem order first finite (unsigned_unitOfWord _).1 (unit_mem _).2

end Draw

end DriftField
