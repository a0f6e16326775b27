import Mathlib
import DriftField.Proofs.Scalar.Sum
/-!
Products of numbers that are not negative: the exact product of the weights, rounded. A factor of at most one makes no
number greater, and a factor below one makes every number of full precision lesser.
-/

namespace DriftField.Scalar

open Float.Model Float.Model.UnpackedFloat

/-- As many units as before, each of them written as more of a finer unit, round to the same number. -/
theorem nearestRank_mul (p n j : Nat) : nearestRank (p + j) (n * 2 ^ j) = nearestRank p n := by
  have place : nearestPlace (p + j) (n * 2 ^ j) = nearestPlace p n := by
    rcases eq_or_ne n 0 with rfl | nonzero
    · unfold nearestPlace nearestEven
      simp
    · have places : max ((n * 2 ^ j).log2 - 52) (p + j) = max (n.log2 - 52) p + j := by
        rw [log2_mul_pow nonzero]
        omega
      unfold nearestPlace
      simp only [places, nearestEven_mul]
      congr 2
      omega
  unfold nearestRank
  rw [place]

theorem nearestRank_none (p : Nat) : nearestRank p 0 = 0 := by
  have scaled := nearestRank_mul 0 0 p
  rwa [Nat.zero_mul, Nat.zero_add, nearestRank_zero] at scaled

/-- A number of full precision, reduced by as little of itself as a factor can, is at least a place lower. -/
theorem nearestRank_reduced {m k : Nat} (short : m < 2 ^ 53) (full : 2 ^ 52 ≤ m) (scaled : 0 < k) :
    nearestRank 53 ((2 ^ 53 - 1) * (m * 2 ^ k)) < k * 2 ^ 52 + (m : Int) := by
  have below : nearestPlace 53 ((2 ^ 53 - 1) * (m * 2 ^ k)) < k * 2 ^ 52 + m := by
    rcases full.lt_or_eq with above | rfl
    · have whole : (2 ^ 53 - 1) * (m * 2 ^ k) = (m * (2 ^ 53 - 1)) * 2 ^ k := by ring
      have log : (m * (2 ^ 53 - 1)).log2 = 105 := by
        rw [Nat.log2_eq_iff (by omega)]
        omega
      have places : max (((m * (2 ^ 53 - 1)) * 2 ^ k).log2 - 52) 53 = 53 + k := by
        rw [log2_mul_pow (by omega), log]
        omega
      have nearest : nearestEven (m * (2 ^ 53 - 1)) 53 = m - 1 := by
        have quotient : m * (2 ^ 53 - 1) / 2 ^ 53 = m - 1 := by omega
        have remainder : m * (2 ^ 53 - 1) % 2 ^ 53 = 2 ^ 53 - m := by omega
        unfold nearestEven
        simp only [quotient, remainder]
        rw [if_pos (by omega)]
      unfold nearestPlace
      simp only [whole, places, nearestEven_mul, nearest]
      omega
    · -- Below a power of two the places are half as far apart.
      have whole : (2 ^ 53 - 1) * (2 ^ 52 * 2 ^ k) = (2 ^ 53 - 1) * 2 ^ (52 + k) := by rw [pow_add]
      have log : (2 ^ 53 - 1 : Nat).log2 = 52 := by decide
      have places : max (((2 ^ 53 - 1) * 2 ^ (52 + k)).log2 - 52) 53 = 52 + k := by
        rw [log2_mul_pow (by decide), log]
        omega
      unfold nearestPlace
      simp only [whole, places, nearestEven_exact]
      omega
  exact (min_le_left _ _).trans_lt (by exact_mod_cast below)

def magnitude (v : Float) : Nat := (weight v.toModel.unpack).natAbs

variable {a b v : Float}

theorem zero_le_iff (number : v.isNaN = false) : 0.0 ≤ v ↔ 0 ≤ rank v :=
  le_iff_rank (by decide) number

/-- What a finite number that is not negative unpacks to. -/
inductive Unsigned (v : Float) : Prop
  | zero (s : Sign) (value : v.toModel.unpack = .zero s)
  | finite (m : Nat) (e : Int) (positive : 0 < m) (value : v.toModel.unpack = .finite .positive m e positive)
      (canonical : Canonical m e)

theorem unsigned (nonnegative : 0.0 ≤ v) (finite : isFinite v = true) : Unsigned v := by
  have number := (not_isNaN_of_le nonnegative).2
  have form := isNumber number
  rw [zero_le_iff number] at nonnegative
  unfold rank at nonnegative
  change v.toModel.unpack.isFinite = true at finite
  cases value : v.toModel.unpack with
  | notANumber =>
      rw [value] at finite
      cases finite
  | infinity s =>
      rw [value] at finite
      cases finite
  | zero s => exact .zero s value
  | finite s m e positive =>
      rw [value] at form nonnegative
      cases s with
      | positive => exact .finite m e positive value form
      | negative =>
          have above := Canonical.place_pos form positive
          exact absurd nonnegative (neg_lt_zero.mpr above).not_ge

theorem weight_finite {m : Nat} {e : Int} {positive : 0 < m} :
    weight (.finite .positive m e positive) = (m * 2 ^ (e + 1074).toNat : Nat) := by
  push_cast
  rfl

namespace Unsigned

theorem isNumber (unsigned : Unsigned v) : IsNumber v.toModel.unpack := by
  cases unsigned with
  | zero s value =>
      rw [value]
      exact trivial
  | finite m e positive value canonical =>
      rw [value]
      exact canonical

theorem isNaN (unsigned : Unsigned v) : v.isNaN = false := unsigned.isNumber.isNaN

theorem isFinite (unsigned : Unsigned v) : Scalar.isFinite v = true := by
  change v.toModel.unpack.isFinite = true
  cases unsigned with
  | zero s value =>
      rw [value]
      rfl
  | finite m e positive value canonical =>
      rw [value]
      rfl

theorem weight_eq (unsigned : Unsigned v) : weight v.toModel.unpack = magnitude v := by
  refine (Int.natAbs_of_nonneg ?_).symm
  cases unsigned with
  | zero s value =>
      rw [value]
      exact le_rfl
  | finite m e positive value canonical =>
      rw [value, weight_finite]
      exact Int.natCast_nonneg _

theorem rank_eq (unsigned : Unsigned v) : rank v = nearestRank 0 (magnitude v) := by
  unfold rank
  rw [place_eq_rounded unsigned.isNumber, unsigned.weight_eq]
  rfl

theorem nonneg (unsigned : Unsigned v) : 0.0 ≤ v := by
  rw [zero_le_iff unsigned.isNaN, unsigned.rank_eq]
  exact nearestRank_nonneg 0 _

theorem magnitude_zero {s : Sign} (value : v.toModel.unpack = .zero s) : magnitude v = 0 := by
  unfold magnitude
  rw [value]
  rfl

theorem magnitude_finite {m : Nat} {e : Int} {positive : 0 < m}
    (value : v.toModel.unpack = .finite .positive m e positive) : magnitude v = m * 2 ^ (e + 1074).toNat := by
  unfold magnitude
  rw [value, weight_finite, Int.natAbs_natCast]

end Unsigned

/-- The exponent of a product is too great for its significand only where it is below the least one. -/
theorem add_le_targetExponent {m n : Nat} {e d : Int} (left : Canonical m e) (right : Canonical n d)
    (positive : 0 < m) (positive' : 0 < n) :
    e + d ≤ Format.binary64.targetExponent (totalExponent (m * n) (e + d)) := by
  have long (full : 2 ^ 52 ≤ m * n) : 52 ≤ (m * n).log2 := (Nat.le_log2 (by positivity)).mpr full
  change e + d ≤ max (((m * n).log2 : Int) + 1 + (e + d) - (53 : Nat)) (-1074)
  rcases left.long with lowest | full
  · rcases right.long with lowest' | full'
    · omega
    · have := long (full'.trans (Nat.le_mul_of_pos_left _ positive))
      omega
  · have := long (full.trans (Nat.le_mul_of_pos_right _ positive'))
    omega

theorem packed_mul (left : Unsigned a) (right : Unsigned b) :
    Packed (UnpackedFloat.mul Format.binary64 a.toModel.unpack b.toModel.unpack)
      (nearestRank 1074 (magnitude a * magnitude b)) := by
  have zero (s : Sign) : Packed (.zero s) 0 := .of_isNumber trivial
  cases left with
  | zero s value =>
      rw [value, Unsigned.magnitude_zero value, Nat.zero_mul, nearestRank_none]
      cases right with
      | zero t value' =>
          rw [value']
          exact zero _
      | finite n d positive' value' canonical' =>
          rw [value']
          exact zero _
  | finite m e positive value canonical =>
      cases right with
      | zero t value' =>
          rw [value, value', Unsigned.magnitude_zero value', Nat.mul_zero, nearestRank_none]
          exact zero _
      | finite n d positive' value' canonical' =>
          have least := canonical.least
          have least' := canonical'.least
          have places : (e + d + 1074 + (1074 : Nat)).toNat = (e + 1074).toNat + (d + 1074).toNat := by
            omega
          have whole : magnitude a * magnitude b = m * n * 2 ^ (e + d + 1074 + (1074 : Nat)).toNat := by
            rw [Unsigned.magnitude_finite value, Unsigned.magnitude_finite value', places, pow_add]
            ring
          rw [value, value', whole]
          exact packed_roundWithAccuracy .positive (Nat.mul_pos positive positive') (by omega)
            (add_le_targetExponent canonical canonical' positive positive')

theorem rank_mul (left : Unsigned a) (right : Unsigned b) :
    rank (a * b) = nearestRank 1074 (magnitude a * magnitude b) := (packed_mul left right).place_eq

theorem isNaN_mul (left : Unsigned a) (right : Unsigned b) : (a * b).isNaN = false :=
  (packed_mul left right).number.isNaN

theorem mul_nonneg (left : Unsigned a) (right : Unsigned b) : 0.0 ≤ a * b := by
  rw [zero_le_iff (isNaN_mul left right), rank_mul left right]
  exact nearestRank_nonneg _ _

theorem le_iff_magnitude (left : Unsigned a) (right : Unsigned b) : a ≤ b ↔ magnitude a ≤ magnitude b := by
  rw [le_iff_weight left.isNaN right.isNaN, left.weight_eq, right.weight_eq]
  exact Int.ofNat_le

theorem lt_iff_magnitude (left : Unsigned a) (right : Unsigned b) : a < b ↔ magnitude a < magnitude b := by
  rw [lt_iff_weight left.isNaN right.isNaN, left.weight_eq, right.weight_eq]
  exact Int.ofNat_lt

theorem unsigned_zero : Unsigned 0.0 := .zero .positive rfl

theorem magnitude_zero : magnitude 0.0 = 0 := Unsigned.magnitude_zero (s := .positive) rfl

theorem unsigned_one : Unsigned 1.0 := unsigned (by decide) (by decide)

theorem magnitude_one : magnitude 1.0 = 2 ^ 1074 := by
  have value : (1.0 : Float).toModel.unpack = .finite .positive (2 ^ 52) (-52) (by decide) := by rfl
  rw [Unsigned.magnitude_finite value, show (-52 + 1074 : Int).toNat = 1022 from rfl, ← pow_add]

theorem mul_le_right (left : Unsigned a) (right : Unsigned b) (small : a ≤ 1.0) : a * b ≤ b := by
  rw [le_iff_magnitude left unsigned_one, magnitude_one] at small
  rw [le_iff_rank (isNaN_mul left right) right.isNaN, rank_mul left right, right.rank_eq]
  calc
    nearestRank 1074 (magnitude a * magnitude b) ≤ nearestRank 1074 (magnitude b * 2 ^ 1074) := by
      rw [Nat.mul_comm]
      exact nearestRank_mono _ (Nat.mul_le_mul_left _ small)
    _ = nearestRank 0 (magnitude b) := by
      have scaled := nearestRank_mul 0 (magnitude b) 1074
      rwa [Nat.zero_add] at scaled

def almostOne : UnpackedFloat := .finite .positive (2 ^ 53 - 1) (-53) (by decide)

theorem magnitude_le_of_lt_one (left : Unsigned a) (small : a < 1.0) : magnitude a ≤ (2 ^ 53 - 1) * 2 ^ 1021 := by
  have number : IsNumber almostOne := ⟨by decide, by decide, by decide, .inr (by decide)⟩
  have next : place (1.0 : Float).toModel.unpack = place almostOne + 1 := by decide
  rw [lt_iff_rank left.isNaN (by decide)] at small
  unfold rank at small
  rw [next, Int.lt_add_one_iff, place_le_iff left.isNumber number, left.weight_eq] at small
  unfold almostOne at small
  rw [weight_finite, show (-53 + 1074 : Int).toNat = 1021 from rfl] at small
  exact Int.ofNat_le.mp small

theorem mul_lt_right (left : Unsigned a) (right : Unsigned b) (small : a < 1.0) (precise : 2 ^ 53 ≤ rank b) :
    a * b < b := by
  rw [lt_iff_rank (isNaN_mul left right) right.isNaN, rank_mul left right]
  unfold rank at precise ⊢
  cases right with
  | zero s value =>
      rw [value] at precise
      change 2 ^ 53 ≤ 0 at precise
      omega
  | finite m e positive value canonical =>
      obtain ⟨short, least, -, long⟩ := canonical
      obtain ⟨k, scale⟩ : ∃ k : Nat, e + 1074 = k := Int.eq_ofNat_of_zero_le (by omega)
      have exponent : (e + 1074).toNat = k := by omega
      have place_eq : place (.finite .positive m e positive) = k * 2 ^ 52 + m := by
        rw [← scale]
        rfl
      rw [value, place_eq] at precise
      rw [value, place_eq, Unsigned.magnitude_finite value, exponent]
      calc
        nearestRank 1074 (magnitude a * (m * 2 ^ k)) ≤
            nearestRank (53 + 1021) ((2 ^ 53 - 1) * (m * 2 ^ k) * 2 ^ 1021) := by
          rw [Nat.mul_right_comm]
          exact nearestRank_mono _ (Nat.mul_le_mul_right _ (magnitude_le_of_lt_one left small))
        _ = nearestRank 53 ((2 ^ 53 - 1) * (m * 2 ^ k)) := nearestRank_mul _ _ _
        _ < k * 2 ^ 52 + m := nearestRank_reduced short (long.resolve_left (by omega)) (by omega)

end DriftField.Scalar
