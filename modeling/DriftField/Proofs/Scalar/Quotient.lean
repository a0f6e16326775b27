import Mathlib
import DriftField.Proofs.Scalar.Product
/-!
Quotients of numbers that are not negative. The division cuts a quotient off and keeps how much is missing, which comes
to two more binary places; rounded, they give the nearest number. A divisor of at least one makes no number greater,
and a quotient that is a number is exact.
-/

namespace DriftField.Scalar

open Float.Model Float.Model.UnpackedFloat

/-! What is missing from a quotient that was cut off, in quarters: one stands for less than a half, three for more. -/

def quarters : Accuracy → Nat
  | .exact => 0
  | .inexact .lt => 1
  | .inexact .eq => 2
  | .inexact .gt => 3

theorem quarters_lt (accuracy : Accuracy) : quarters accuracy < 4 := by
  rcases accuracy with _ | _ | _ | _ <;> decide

theorem ofMantissaAndAccuracy_eq (m : Nat) (accuracy : Accuracy) :
    ExtendedMantissa.ofMantissaAndAccuracy m accuracy =
      ExtendedMantissa.ofMantissaAndAccuracy (4 * m + quarters accuracy) .exact >>> 2 := by
  have shifted (n : Nat) : ExtendedMantissa.ofMantissaAndAccuracy n .exact >>> 2 =
      ⟨n / 2 / 2, n / 2 % 2 != 0, n % 2 != 0⟩ := by
    change ExtendedMantissa.mk (n / 2 / 2) (n / 2 % 2 != 0) ((n % 2 != 0) || (false || false)) = _
    rw [Bool.or_false, Bool.or_false]
  have whole (c : Nat) (small : c < 4) :
      (4 * m + c) / 2 / 2 = m ∧ (4 * m + c) / 2 % 2 = c / 2 ∧ (4 * m + c) % 2 = c % 2 := by omega
  obtain ⟨mantissa, half, rest⟩ := whole (quarters accuracy) (quarters_lt accuracy)
  rw [shifted, mantissa, half, rest]
  rcases accuracy with _ | _ | _ | _ <;> rfl

theorem shiftRight_shiftRight_two (em : ExtendedMantissa) (k : Nat) : (em >>> 2) >>> k = em >>> (k + 2) := by
  induction k with
  | zero => rfl
  | succ k induction => exact congrArg ExtendedMantissa.shiftRightOne induction

/-- Rounding a number that was cut off is rounding the number with two more places. -/
theorem roundWithAccuracy_eq {m : Nat} {e t : Int} (s : Sign) (accuracy : Accuracy)
    (target : Format.binary64.targetExponent (totalExponent m e) = t)
    (target' : Format.binary64.targetExponent (totalExponent (4 * m + quarters accuracy) (e - 2)) = t)
    (below : e ≤ t) :
    roundWithAccuracy Format.binary64 s m e accuracy =
      roundWithAccuracy Format.binary64 s (4 * m + quarters accuracy) (e - 2) .exact := by
  have shift : shiftToTargetExponent Format.binary64 m e accuracy =
      shiftToTargetExponent Format.binary64 (4 * m + quarters accuracy) (e - 2) .exact := by
    have places : (t - (e - 2)).toNat = (t - e).toNat + 2 := by omega
    have exponent : e - 2 + (((t - e).toNat + 2 : Nat) : Int) = e + ((t - e).toNat : Int) := by omega
    unfold shiftToTargetExponent
    simp only [target, target']
    unfold shiftToExponent
    simp only [places, exponent]
    rw [ofMantissaAndAccuracy_eq, shiftRight_shiftRight_two]
  unfold roundWithAccuracy
  rw [shift]

/-- The quotient of `m` by `n` in quarters; where it is not exact, it stands for the rest too. -/
def quarterQuotient (m n : Nat) : Nat := 4 * (m / n) + quarters (accuracyOfFraction (m % n) n)

section

variable {m n : Nat}

theorem quarterQuotient_mul (m : Nat) (positive : 0 < n) : quarterQuotient (m * n) n = 4 * m := by
  unfold quarterQuotient accuracyOfFraction
  rw [Nat.mul_div_cancel _ positive, Nat.mul_mod_left, if_pos rfl]
  rfl

theorem quarterQuotient_le {k : Nat} (positive : 0 < n) (bound : m ≤ k * n) : quarterQuotient m n ≤ 4 * k := by
  rcases bound.lt_or_eq with less | rfl
  · have quotient : m / n < k := (Nat.div_lt_iff_lt_mul positive).mpr less
    have rest := quarters_lt (accuracyOfFraction (m % n) n)
    unfold quarterQuotient
    omega
  · exact (quarterQuotient_mul k positive).le

theorem quarterQuotient_pos (positive : 0 < m) : 0 < quarterQuotient m n := by
  have part := Nat.div_add_mod m n
  unfold quarterQuotient accuracyOfFraction
  split
  · next divides =>
    rw [divides, Nat.add_zero] at part
    have quotient : m / n ≠ 0 := by
      intro none
      rw [none, Nat.mul_zero] at part
      exact positive.ne part
    omega
  · have rest : 0 < quarters (.inexact (compare (2 * (m % n)) n)) := by
      cases compare (2 * (m % n)) n <;> decide
    omega

theorem log2_quarterQuotient (whole : 0 < m / n) : (quarterQuotient m n).log2 = (m / n).log2 + 2 := by
  have bounds := (Nat.log2_eq_iff whole.ne').mp rfl
  have rest := quarters_lt (accuracyOfFraction (m % n) n)
  unfold quarterQuotient
  rw [Nat.log2_eq_iff (by omega), pow_succ, pow_succ, pow_succ, pow_succ, pow_succ]
  omega

/-- The two further places change the exponent of the rounding only where nothing else is left. -/
theorem targetExponent_quarterQuotient {t : Int} (positive : 0 < m) (full : -1074 < t → 2 ^ 52 ≤ m / n) :
    Format.binary64.targetExponent (totalExponent (quarterQuotient m n) (t - 2)) =
      Format.binary64.targetExponent (totalExponent (m / n) t) := by
  change max (((quarterQuotient m n).log2 : Int) + 1 + (t - 2) - (53 : Nat)) (-1074) =
    max (((m / n).log2 : Int) + 1 + t - (53 : Nat)) (-1074)
  rcases Nat.eq_zero_or_pos (m / n) with none | whole
  · have lowest : t ≤ -1074 := by
      by_contra above
      have := full (by omega)
      omega
    have rest := quarters_lt (accuracyOfFraction (m % n) n)
    have short : (quarterQuotient m n).log2 < 2 := by
      rw [Nat.log2_lt (quarterQuotient_pos positive).ne']
      unfold quarterQuotient
      omega
    rw [none, Nat.log2_zero]
    omega
  · rw [log2_quarterQuotient whole]
    omega

theorem le_targetExponent_quotient {t : Int} (full : -1074 < t → 2 ^ 52 ≤ m / n) :
    t ≤ Format.binary64.targetExponent (totalExponent (m / n) t) := by
  change t ≤ max (((m / n).log2 : Int) + 1 + t - (53 : Nat)) (-1074)
  rcases le_or_gt t (-1074) with lowest | scaled
  · omega
  · have long := full scaled
    have := (Nat.le_log2 (by omega)).mpr long
    omega

end

/-! Division. -/

def quotientExponent (m : Nat) (e : Int) (n : Nat) (d : Int) : Int :=
  min (e - d) (Format.binary64.targetExponent (totalExponent m e - totalExponent n d))

section

variable {m n : Nat} {e d : Int}

theorem quotientExponent_eq (m n : Nat) (e d : Int) :
    quotientExponent m e n d = min (e - d) (max (m.log2 + e - n.log2 - d - 53) (-1074)) := by
  change min (e - d) (max ((m.log2 : Int) + 1 + e - ((n.log2 : Int) + 1 + d) - (53 : Nat)) (-1074)) = _
  congr 2
  omega

theorem le_quotientExponent (left : Canonical m e) (right : Canonical n d) : -2045 ≤ quotientExponent m e n d := by
  have least := left.least
  have greatest := right.greatest
  rw [quotientExponent_eq]
  omega

/-- Above the least exponent a quotient has full precision. -/
theorem le_quotient (positive : 0 < m) (positive' : 0 < n) {t : Int} (exponent : quotientExponent m e n d = t)
    (scaled : -1074 < t) : 2 ^ 52 ≤ m * 2 ^ (e - d - t).toNat / n := by
  rw [quotientExponent_eq] at exponent
  have places : n.log2 + 1 + 52 ≤ m.log2 + (e - d - t).toNat := by omega
  rw [Nat.le_div_iff_mul_le positive']
  calc
    2 ^ 52 * n ≤ 2 ^ 52 * 2 ^ (n.log2 + 1) := Nat.mul_le_mul_left _ Nat.lt_log2_self.le
    _ = 2 ^ (n.log2 + 1 + 52) := by rw [← pow_add, Nat.add_comm]
    _ ≤ 2 ^ (m.log2 + (e - d - t).toNat) := Nat.pow_le_pow_right (by decide) places
    _ = 2 ^ m.log2 * 2 ^ (e - d - t).toNat := pow_add _ _ _
    _ ≤ m * 2 ^ (e - d - t).toNat := Nat.mul_le_mul_right _ ((Nat.le_log2 positive.ne').mp le_rfl)

theorem packed_div (left : Canonical m e) (right : Canonical n d) (positive : 0 < m) (positive' : 0 < n) {t : Int}
    (exponent : quotientExponent m e n d = t) :
    Packed (UnpackedFloat.div Format.binary64 (.finite .positive m e positive) (.finite .positive n d positive'))
      (nearestRank 1074 (quarterQuotient (m * 2 ^ (e - d - t).toNat) n * 2 ^ (t + 2146).toNat)) := by
  obtain ⟨k, numerator⟩ : ∃ k, m * 2 ^ (e - d - t).toNat = k := ⟨_, rfl⟩
  have some : 0 < k := by
    rw [← numerator]
    positivity
  have divided : UnpackedFloat.div Format.binary64 (.finite .positive m e positive) (.finite .positive n d positive') =
      roundWithAccuracy Format.binary64 .positive (k / n) t (accuracyOfFraction (k % n) n) := by
    rw [← numerator, ← exponent, ← Nat.shiftLeft_eq]
    rfl
  have full : -1074 < t → 2 ^ 52 ≤ k / n := by
    rw [← numerator]
    exact le_quotient positive positive' exponent
  have least := le_quotientExponent left right
  rw [exponent] at least
  have same := targetExponent_quarterQuotient some full
  have below := le_targetExponent_quotient full
  have places : (t - 2 + 1074 + (1074 : Nat)).toNat = (t + 2146).toNat := by omega
  rw [divided, roundWithAccuracy_eq .positive _ rfl same below, numerator, ← places]
  exact packed_roundWithAccuracy .positive (quarterQuotient_pos some) (by omega)
    ((Int.sub_le_self t (by decide)).trans (below.trans same.ge))

theorem nearestRank_quarters {t : Int} (lowest : -1074 ≤ e) (least : -2045 ≤ t) (below : t ≤ e) :
    nearestRank 1074 (4 * (m * 2 ^ (e - t).toNat) * 2 ^ (t + 2146).toNat) = nearestRank 0 (m * 2 ^ (e + 1074).toNat) := by
  have places : 2 + (e - t).toNat + (t + 2146).toNat = (e + 1074).toNat + 1074 := by omega
  have whole : 4 * (m * 2 ^ (e - t).toNat) * 2 ^ (t + 2146).toNat = m * 2 ^ (e + 1074).toNat * 2 ^ 1074 := by
    rw [Nat.mul_assoc m, ← pow_add, ← places, pow_add, pow_add]
    ring
  have scaled := nearestRank_mul 0 (m * 2 ^ (e + 1074).toNat) 1074
  rwa [← whole, Nat.zero_add] at scaled

/-! A divisor of at least one. -/

theorem quotientExponent_le (left : Canonical m e) (right : Canonical n d) (positive : 0 < m)
    (large : 2 ^ 1074 ≤ n * 2 ^ (d + 1074).toNat) : quotientExponent m e n d ≤ e := by
  have lowest := left.least
  have lowest' := right.least
  have log : m.log2 < 53 := (Nat.log2_lt positive.ne').mpr left.short
  have log' : 1074 < n.log2 + 1 + (d + 1074).toNat := by
    have scaled : n * 2 ^ (d + 1074).toNat < 2 ^ (n.log2 + 1) * 2 ^ (d + 1074).toNat :=
      Nat.mul_lt_mul_of_pos_right Nat.lt_log2_self (by positivity)
    have above := large.trans_lt scaled
    rwa [← pow_add, pow_lt_pow_iff_right₀ one_lt_two] at above
  rw [quotientExponent_eq]
  clear large
  omega

theorem numerator_le {t : Int} (lowest : -1074 ≤ d) (below : t ≤ e) (below' : t ≤ e - d)
    (large : 2 ^ 1074 ≤ n * 2 ^ (d + 1074).toNat) : m * 2 ^ (e - d - t).toNat ≤ m * 2 ^ (e - t).toNat * n := by
  have places : (e - d - t).toNat + (d + 1074).toNat = (e - t).toNat + 1074 := by omega
  have scaled : 2 ^ (e - d - t).toNat * 2 ^ (d + 1074).toNat ≤ 2 ^ (e - t).toNat * n * 2 ^ (d + 1074).toNat := by
    rw [← pow_add, places, pow_add, Nat.mul_assoc]
    exact Nat.mul_le_mul_left _ large
  rw [Nat.mul_assoc]
  exact Nat.mul_le_mul_left _ (Nat.le_of_mul_le_mul_right scaled (by positivity))

/-! A quotient that is a number. -/

theorem log2_lt_of_eq {p i j k : Nat} (positive : 0 < m) (positive' : 0 < n)
    (exact : p * 2 ^ i * 2 ^ 1074 = m * 2 ^ j * (n * 2 ^ k)) :
    p.log2 + (i + 1074) < m.log2 + 1 + (n.log2 + 1) + (j + k) := by
  have product : m * n < 2 ^ (m.log2 + 1 + (n.log2 + 1)) := by
    rw [pow_add]
    exact Nat.mul_lt_mul'' Nat.lt_log2_self Nat.lt_log2_self
  have some : p ≠ 0 := by
    rintro rfl
    have : 0 < m * 2 ^ j * (n * 2 ^ k) := by positivity
    rw [Nat.zero_mul, Nat.zero_mul] at exact
    exact this.ne exact
  rw [← Nat.pow_lt_pow_iff_right (show 1 < 2 by decide)]
  calc
    2 ^ (p.log2 + (i + 1074)) = 2 ^ p.log2 * 2 ^ i * 2 ^ 1074 := by rw [pow_add, pow_add, Nat.mul_assoc]
    _ ≤ p * 2 ^ i * 2 ^ 1074 := Nat.mul_le_mul_right _ (Nat.mul_le_mul_right _ ((Nat.le_log2 some).mp le_rfl))
    _ = m * n * 2 ^ (j + k) := by
      rw [exact, pow_add]
      ring
    _ < 2 ^ (m.log2 + 1 + (n.log2 + 1)) * 2 ^ (j + k) := Nat.mul_lt_mul_of_pos_right product (by positivity)
    _ = 2 ^ (m.log2 + 1 + (n.log2 + 1) + (j + k)) := (pow_add _ _ _).symm

theorem quotientExponent_le_of_eq {p : Nat} {j : Int} (left : Canonical p j) (right : Canonical n d)
    (canonical : Canonical m e) (positive : 0 < m) (positive' : 0 < n)
    (exact : p * 2 ^ (j + 1074).toNat * 2 ^ 1074 = m * 2 ^ (e + 1074).toNat * (n * 2 ^ (d + 1074).toNat)) :
    quotientExponent p j n d ≤ e := by
  have lowest := left.least
  have lowest' := right.least
  have lowest'' := canonical.least
  have log : m.log2 < 53 := (Nat.log2_lt positive.ne').mpr canonical.short
  have log' := log2_lt_of_eq positive positive' exact
  rw [quotientExponent_eq]
  clear exact
  omega

theorem numerator_eq {p : Nat} {j t : Int} (lowest : -1074 ≤ j) (lowest' : -1074 ≤ d) (lowest'' : -1074 ≤ e)
    (least : -2045 ≤ t) (below : t ≤ e) (below' : t ≤ j - d)
    (exact : p * 2 ^ (j + 1074).toNat * 2 ^ 1074 = m * 2 ^ (e + 1074).toNat * (n * 2 ^ (d + 1074).toNat)) :
    p * 2 ^ (j - d - t).toNat = m * 2 ^ (e - t).toNat * n := by
  have places : (j - d - t).toNat + ((d + 1074).toNat + (t + 2146).toNat) = (j + 1074).toNat + 1074 + 1072 := by omega
  have places' : (e - t).toNat + (t + 2146).toNat = (e + 1074).toNat + 1072 := by omega
  apply Nat.eq_of_mul_eq_mul_right (show 0 < 2 ^ ((d + 1074).toNat + (t + 2146).toNat) by positivity)
  calc
    p * 2 ^ (j - d - t).toNat * 2 ^ ((d + 1074).toNat + (t + 2146).toNat) =
        p * 2 ^ (j + 1074).toNat * 2 ^ 1074 * 2 ^ 1072 := by
      rw [Nat.mul_assoc, ← pow_add, places, pow_add, pow_add, ← Nat.mul_assoc, ← Nat.mul_assoc]
    _ = m * n * (2 ^ (e + 1074).toNat * 2 ^ 1072) * 2 ^ (d + 1074).toNat := by
      rw [exact]
      generalize 2 ^ 1072 = rest
      ring
    _ = m * 2 ^ (e - t).toNat * n * 2 ^ ((d + 1074).toNat + (t + 2146).toNat) := by
      rw [← pow_add, ← places', pow_add, pow_add]
      ring

end

variable {a b : Float}

theorem packed_div_of_one_le (left : Unsigned a) (right : Unsigned b) (large : 1.0 ≤ b) :
    ∃ r, Packed (UnpackedFloat.div Format.binary64 a.toModel.unpack b.toModel.unpack) r ∧ 0 ≤ r ∧ r ≤ rank a := by
  rw [le_iff_magnitude unsigned_one right, magnitude_one] at large
  cases right with
  | zero s value =>
      have some : 0 < 2 ^ 1074 := pow_pos two_pos _
      rw [Unsigned.magnitude_zero value] at large
      exact absurd some large.not_gt
  | finite n d positive' value' canonical' =>
      cases left with
      | zero s value =>
          have none : rank a = 0 := by
            unfold rank
            rw [value]
            rfl
          rw [value, value', none]
          exact ⟨0, .of_isNumber (u := .zero _) trivial, le_rfl, le_rfl⟩
      | finite m e positive value canonical =>
          rw [Unsigned.magnitude_finite value'] at large
          obtain ⟨t, exponent⟩ : ∃ t, quotientExponent m e n d = t := ⟨_, rfl⟩
          have least := le_quotientExponent canonical canonical'
          have below := quotientExponent_le canonical canonical' positive large
          have below' : quotientExponent m e n d ≤ e - d := min_le_left _ _
          rw [exponent] at least below below'
          have bound := numerator_le (m := m) canonical'.least below below' large
          rw [(Unsigned.finite m e positive value canonical).rank_eq, Unsigned.magnitude_finite value,
            ← nearestRank_quarters canonical.least least below, value, value']
          refine ⟨_, packed_div canonical canonical' positive positive' exponent, nearestRank_nonneg _ _, ?_⟩
          exact nearestRank_mono _ (Nat.mul_le_mul_right _ (quarterQuotient_le positive' bound))

theorem div_mem (left : Unsigned a) (right : Unsigned b) (large : 1.0 ≤ b) : 0.0 ≤ a / b ∧ a / b ≤ a := by
  obtain ⟨r, packed, above, below⟩ := packed_div_of_one_le left right large
  have number : (a / b).isNaN = false := packed.number.isNaN
  have value : rank (a / b) = r := packed.place_eq
  rw [zero_le_iff number, le_iff_rank number left.isNaN, value]
  exact ⟨above, below⟩

theorem rank_div_of_eq {m : Nat} {e : Int} (left : Unsigned a) (right : Unsigned b) (canonical : Canonical m e)
    (positive : 0 < m) (divisor : 0 < magnitude b)
    (exact : magnitude a * 2 ^ 1074 = m * 2 ^ (e + 1074).toNat * magnitude b) :
    (a / b).isNaN = false ∧ rank (a / b) = (e + 1074) * 2 ^ 52 + m := by
  cases right with
  | zero s value =>
      rw [Unsigned.magnitude_zero value] at divisor
      exact absurd divisor (Nat.lt_irrefl 0)
  | finite n d positive' value' canonical' =>
      cases left with
      | zero s value =>
          have some : 0 < m * 2 ^ (e + 1074).toNat * magnitude b := by positivity
          rw [Unsigned.magnitude_zero value, Nat.zero_mul] at exact
          exact absurd exact some.ne
      | finite p j positive'' value canonical'' =>
          rw [Unsigned.magnitude_finite value, Unsigned.magnitude_finite value'] at exact
          obtain ⟨t, exponent⟩ : ∃ t, quotientExponent p j n d = t := ⟨_, rfl⟩
          have least := le_quotientExponent canonical'' canonical'
          have below := quotientExponent_le_of_eq canonical'' canonical' canonical positive positive' exact
          have below' : quotientExponent p j n d ≤ j - d := min_le_left _ _
          rw [exponent] at least below below'
          have whole := numerator_eq canonical''.least canonical'.least canonical.least least below below' exact
          have packed := packed_div canonical'' canonical' positive'' positive' exponent
          rw [whole, quarterQuotient_mul _ positive', nearestRank_quarters canonical.least least below,
            ← value, ← value'] at packed
          refine ⟨packed.number.isNaN, packed.place_eq.trans ?_⟩
          obtain ⟨k, scale⟩ : ∃ k : Nat, e + 1074 = k := Int.eq_ofNat_of_zero_le (by have := canonical.least; omega)
          have places : (e + 1074).toNat = k := by omega
          have below := canonical.place_lt
          rw [places, nearestRank_exact canonical.short (canonical.long.imp (by omega) id), ← scale, min_eq_left below.le]

end DriftField.Scalar
