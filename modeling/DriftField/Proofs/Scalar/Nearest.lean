import Mathlib
import DriftField.Proofs.Scalar.Order
/-!
Rounding to the nearest binary64 number, a half going to the even one, as a function on whole numbers: it keeps the
order, and it is what the arithmetic of binary64 numbers does to an exact result.
-/

namespace DriftField.Scalar

open Float.Model Float.Model.UnpackedFloat

/-- The whole number nearest to `n / 2 ^ k`. -/
def nearestEven (n k : Nat) : Nat :=
  let q := n / 2 ^ k
  let r := n % 2 ^ k
  if 2 * r < 2 ^ k then q else if 2 ^ k < 2 * r then q + 1 else q + q % 2

/-- The place of the number nearest to `n` units of `2 ^ -(1074 + p)`, if its exponent had no bound. -/
def nearestPlace (p n : Nat) : Nat :=
  let k := max (n.log2 - 52) p
  (k - p) * 2 ^ 52 + nearestEven n k

/-- The rank of the number nearest to `n` units of `2 ^ -(1074 + p)`; past the greatest number that is infinity. -/
def nearestRank (p n : Nat) : Int := min (nearestPlace p n : Int) infinityRank

theorem le_nearestEven (n k : Nat) : n / 2 ^ k ≤ nearestEven n k := by
  unfold nearestEven
  simp only
  split_ifs <;> omega

theorem nearestEven_le (n k : Nat) : nearestEven n k ≤ n / 2 ^ k + 1 := by
  unfold nearestEven
  simp only
  split_ifs <;> omega

theorem nearestEven_mono (k : Nat) {m n : Nat} (h : m ≤ n) : nearestEven m k ≤ nearestEven n k := by
  rcases (Nat.div_le_div_right (c := 2 ^ k) h).lt_or_eq with less | same
  · calc
      nearestEven m k ≤ m / 2 ^ k + 1 := nearestEven_le m k
      _ ≤ n / 2 ^ k := less
      _ ≤ nearestEven n k := le_nearestEven n k
  · have part := Nat.div_add_mod m (2 ^ k)
    have part' := Nat.div_add_mod n (2 ^ k)
    have remainder : m % 2 ^ k ≤ n % 2 ^ k := by
      rw [same] at part
      omega
    unfold nearestEven
    simp only [same]
    split_ifs <;> omega

theorem nearestEven_mul (m k j : Nat) : nearestEven (m * 2 ^ j) (k + j) = nearestEven m k := by
  have positive : 0 < 2 ^ j := by positivity
  have quotient : m * 2 ^ j / 2 ^ (k + j) = m / 2 ^ k := by
    rw [pow_add, Nat.mul_div_mul_right _ _ positive]
  have remainder : m * 2 ^ j % 2 ^ (k + j) = m % 2 ^ k * 2 ^ j := by
    rw [pow_add, Nat.mul_mod_mul_right]
  have less : 2 * (m % 2 ^ k * 2 ^ j) < 2 ^ (k + j) ↔ 2 * (m % 2 ^ k) < 2 ^ k := by
    rw [pow_add, ← Nat.mul_assoc, Nat.mul_lt_mul_right positive]
  have greater : 2 ^ (k + j) < 2 * (m % 2 ^ k * 2 ^ j) ↔ 2 ^ k < 2 * (m % 2 ^ k) := by
    rw [pow_add, ← Nat.mul_assoc, Nat.mul_lt_mul_right positive]
  unfold nearestEven
  simp only [quotient, remainder, less, greater]

theorem nearestEven_zero (m : Nat) : nearestEven m 0 = m := by
  unfold nearestEven
  simp [Nat.mod_one]

theorem nearestEven_exact (m k : Nat) : nearestEven (m * 2 ^ k) k = m := by
  have scaled := nearestEven_mul m 0 k
  rwa [Nat.zero_add, nearestEven_zero] at scaled

theorem nearestEven_le_of_log2 {n k : Nat} (short : n.log2 ≤ k + 52) : nearestEven n k ≤ 2 ^ 53 := by
  have below : n < 2 ^ 53 * 2 ^ k := by
    calc
      n < 2 ^ (n.log2 + 1) := Nat.lt_log2_self
      _ ≤ 2 ^ (53 + k) := Nat.pow_le_pow_right (by decide) (by omega)
      _ = 2 ^ 53 * 2 ^ k := pow_add 2 53 k
  calc
    nearestEven n k ≤ n / 2 ^ k + 1 := nearestEven_le n k
    _ ≤ 2 ^ 53 := (Nat.div_lt_iff_lt_mul (by positivity)).mpr below

theorem le_nearestEven_of_log2 {n k : Nat} (long : n.log2 = k + 52) : 2 ^ 52 ≤ nearestEven n k := by
  have nonzero : n ≠ 0 := by
    rintro rfl
    rw [Nat.log2_zero] at long
    omega
  have above : 2 ^ 52 * 2 ^ k ≤ n := by
    calc
      2 ^ 52 * 2 ^ k = 2 ^ (k + 52) := by rw [pow_add, Nat.mul_comm]
      _ ≤ n := (Nat.le_log2 nonzero).mp long.ge
  exact ((Nat.le_div_iff_mul_le (by positivity)).mpr above).trans (le_nearestEven n k)

theorem log2_mono {m n : Nat} (h : m ≤ n) : m.log2 ≤ n.log2 := by
  rw [Nat.log2_eq_log_two, Nat.log2_eq_log_two]
  exact Nat.log_mono_right h

/-- A carry out of the significand is a step of the exponent, so places keep the order across exponents too. -/
theorem nearestPlace_mono (p : Nat) {m n : Nat} (h : m ≤ n) : nearestPlace p m ≤ nearestPlace p n := by
  have logs := log2_mono h
  unfold nearestPlace
  simp only
  rcases (show max (m.log2 - 52) p ≤ max (n.log2 - 52) p by omega).lt_or_eq with less | same
  · have low : nearestEven m (max (m.log2 - 52) p) ≤ 2 ^ 53 :=
      nearestEven_le_of_log2 (by omega)
    have high : 2 ^ 52 ≤ nearestEven n (max (n.log2 - 52) p) :=
      le_nearestEven_of_log2 (by omega)
    omega
  · rw [same]
    have order := nearestEven_mono (max (n.log2 - 52) p) h
    omega

theorem log2_mul_pow {m : Nat} (nonzero : m ≠ 0) (k : Nat) : (m * 2 ^ k).log2 = m.log2 + k := by
  induction k with
  | zero => rw [pow_zero, Nat.mul_one, Nat.add_zero]
  | succ k induction =>
      have scaled : m * 2 ^ k ≠ 0 := by positivity
      rw [pow_succ, ← Nat.mul_assoc, Nat.mul_comm, Nat.log2_two_mul scaled, induction]
      omega

theorem nearestPlace_exact {m k : Nat} (short : m < 2 ^ 53) (long : k = 0 ∨ 2 ^ 52 ≤ m) :
    nearestPlace 0 (m * 2 ^ k) = k * 2 ^ 52 + m := by
  have scale : max ((m * 2 ^ k).log2 - 52) 0 = k := by
    rcases eq_or_ne m 0 with rfl | nonzero
    · rw [Nat.zero_mul, Nat.log2_zero]
      omega
    · have bound : m.log2 < 53 := (Nat.log2_lt nonzero).mpr short
      rw [log2_mul_pow nonzero]
      rcases long with rfl | full
      · omega
      · have := (Nat.le_log2 nonzero).mpr full
        omega
  unfold nearestPlace
  simp only [scale, nearestEven_exact, Nat.sub_zero]

theorem nearestRank_mono (p : Nat) {m n : Nat} (h : m ≤ n) : nearestRank p m ≤ nearestRank p n :=
  min_le_min_right _ (Int.ofNat_le.mpr (nearestPlace_mono p h))

theorem nearestRank_nonneg (p n : Nat) : 0 ≤ nearestRank p n :=
  le_min (Int.natCast_nonneg _) (by decide)

theorem nearestRank_le (p n : Nat) : nearestRank p n ≤ infinityRank := min_le_right _ _

theorem nearestRank_exact {m k : Nat} (short : m < 2 ^ 53) (long : k = 0 ∨ 2 ^ 52 ≤ m) :
    nearestRank 0 (m * 2 ^ k) = min (k * 2 ^ 52 + m : Int) infinityRank := by
  unfold nearestRank
  rw [nearestPlace_exact short long]
  push_cast
  rfl

/-! The rounding of unpacked numbers. -/

/-- What shifting a whole number right leaves: the quotient, and where the rest lies between zero, half and one. -/
structure Shifted (m k : Nat) (em : ExtendedMantissa) : Prop where
  mantissa : em.mantissa = m / 2 ^ k
  half : em.roundBit = true ↔ 2 ^ k ≤ 2 * (m % 2 ^ k)
  apart : em.stickyBit = true ↔ 2 * (m % 2 ^ k) ≠ 0 ∧ 2 * (m % 2 ^ k) ≠ 2 ^ k

theorem Shifted.next {m k : Nat} {em : ExtendedMantissa} (shifted : Shifted m k em) :
    Shifted m (k + 1) em.shiftRightOne := by
  obtain ⟨mantissa, half, apart⟩ := shifted
  have part := Nat.div_add_mod m (2 ^ k)
  have bound := Nat.mod_lt m (show 0 < 2 ^ k by positivity)
  have remainder : m % 2 ^ (k + 1) = m % 2 ^ k + 2 ^ k * (m / 2 ^ k % 2) := by
    rw [pow_succ, Nat.mod_mul]
  refine ⟨?_, ?_, ?_⟩
  · change em.mantissa / 2 = _
    rw [mantissa, Nat.div_div_eq_div_mul, pow_succ]
  · change (em.mantissa % 2 != 0) = true ↔ _
    rw [mantissa, remainder, pow_succ, bne_iff_ne]
    rcases Nat.mod_two_eq_zero_or_one (m / 2 ^ k) with even | odd
    · rw [even]
      omega
    · rw [odd]
      omega
  · change (em.roundBit || em.stickyBit) = true ↔ _
    rw [Bool.or_eq_true, half, apart, remainder, pow_succ]
    rcases Nat.mod_two_eq_zero_or_one (m / 2 ^ k) with even | odd
    · rw [even]
      omega
    · rw [odd]
      omega

theorem shifted_exact (m k : Nat) :
    Shifted m k (ExtendedMantissa.ofMantissaAndAccuracy m .exact >>> k) := by
  induction k with
  | zero =>
      refine ⟨?_, ?_, ?_⟩
      · exact (Nat.div_one m).symm
      · change false = true ↔ _
        simp [Nat.mod_one]
      · change false = true ↔ _
        simp [Nat.mod_one]
  | succ k induction => exact induction.next

theorem Shifted.roundedMantissa {m k : Nat} {em : ExtendedMantissa} (shifted : Shifted m k em) :
    em.roundedMantissa = nearestEven m k := by
  obtain ⟨mantissa, half, apart⟩ := shifted
  obtain ⟨q, round, sticky⟩ := em
  simp only at mantissa half apart
  unfold nearestEven
  simp only
  rw [← mantissa]
  cases round <;> cases sticky
  · change q = _
    rw [if_pos (by simp at half; omega)]
  · change q = _
    rw [if_pos (by simp at half; omega)]
  · change q + q % 2 = _
    simp only [true_iff, Bool.false_eq_true, false_iff] at half apart
    rw [if_neg (by omega), if_neg (by omega)]
  · change q + 1 = _
    simp only [true_iff] at half apart
    rw [if_neg (by omega), if_pos (by omega)]

structure Packed (u : UnpackedFloat) (r : Int) : Prop where
  number : IsNumber (UnpackedFloat.unpack Format.binary64 (UnpackedFloat.pack Format.binary64 u))
  place_eq : place (UnpackedFloat.unpack Format.binary64 (UnpackedFloat.pack Format.binary64 u)) = r

theorem Packed.of_isNumber {u : UnpackedFloat} (number : IsNumber u) : Packed u (place u) := by
  constructor
  · rwa [unpack_pack number]
  · rw [unpack_pack number]

theorem packed_finite {m : Nat} {e : Int} (s : Sign) (positive : 0 < m) (short : m < 2 ^ 53)
    (least : -1074 ≤ e) (long : e = -1074 ∨ 2 ^ 52 ≤ m) :
    Packed (.finite s m e positive) (s.apply (min ((e + 1074) * 2 ^ 52 + m) infinityRank)) := by
  rcases lt_or_ge e 972 with fits | beyond
  · have canonical : Canonical m e := ⟨short, least, fits, long⟩
    rw [min_eq_left canonical.place_lt.le]
    exact .of_isNumber (u := .finite s m e positive) canonical
  · have full : 2 ^ 52 ≤ m := long.resolve_left (by omega)
    have above : infinityRank ≤ (e + 1074) * 2 ^ 52 + m := by
      unfold infinityRank
      omega
    have infinite : UnpackedFloat.pack Format.binary64 (.finite s m e positive) =
        UnpackedFloat.pack Format.binary64 (.infinity s) := by
      unfold UnpackedFloat.pack
      simp only
      rw [if_pos]
      change 2048 ≤ (e + (1023 : Nat) + (52 : Nat)).toNat + 1
      omega
    have bounded : Packed (.infinity s) (s.apply infinityRank) := .of_isNumber trivial
    rw [min_eq_right above]
    constructor
    · rw [infinite]
      exact bounded.number
    · rw [infinite]
      exact bounded.place_eq

/-- The exponent to which a result is rounded, as the number of places above the least one. -/
theorem targetExponent_eq {m : Nat} {e : Int} {p : Nat} (positive : 0 < m) (least : -(1074 + p) ≤ e) :
    Format.binary64.targetExponent (totalExponent m e) =
      max ((m * 2 ^ (e + 1074 + p).toNat).log2 - 52) p - (1074 + p : Int) := by
  have scaled := log2_mul_pow positive.ne' (e + 1074 + p).toNat
  change max ((m.log2 : Int) + 1 + e - (53 : Nat)) (-1074) = _
  omega

theorem shiftToTargetExponent_eq {m : Nat} {e t : Int}
    (target : Format.binary64.targetExponent (totalExponent m e) = t) :
    shiftToTargetExponent Format.binary64 m e .exact =
      (ExtendedMantissa.ofMantissaAndAccuracy m .exact >>> (t - e).toNat, max e t) := by
  unfold shiftToTargetExponent
  simp only [target]
  unfold shiftToExponent
  have whole : e + ((t - e).toNat : Int) = max e t := by omega
  simp only [whole]

/-- The second of the two shifts only mends a carry out of the significand. -/
theorem packed_carried {q : Nat} {t : Int} (s : Sign) (short : q ≤ 2 ^ 53) (least : -1074 ≤ t)
    (long : t = -1074 ∨ 2 ^ 52 ≤ q) :
    let second := shiftToTargetExponent Format.binary64 q t .exact
    Packed (if h : second.1.mantissa = 0 then .zero s
        else .finite s second.1.mantissa second.2 (Nat.pos_of_ne_zero h))
      (s.apply (min ((t + 1074) * 2 ^ 52 + q) infinityRank)) := by
  intro second
  rcases short.lt_or_eq with short | rfl
  · have bound : q.log2 ≤ 52 := by
      rcases eq_or_ne q 0 with rfl | nonzero
      · decide
      · exact Nat.le_of_lt_succ ((Nat.log2_lt nonzero).mpr short)
    have target : Format.binary64.targetExponent (totalExponent q t) ≤ t := by
      change max ((q.log2 : Int) + 1 + t - (53 : Nat)) (-1074) ≤ t
      omega
    have kept : second = (ExtendedMantissa.ofMantissaAndAccuracy q .exact >>> 0, t) := by
      have shift := shiftToTargetExponent_eq (m := q) (e := t) rfl
      rwa [Int.toNat_eq_zero.mpr (by omega), max_eq_left target] at shift
    rw [kept]
    change Packed (if h : q = 0 then .zero s else .finite s q t (Nat.pos_of_ne_zero h)) _
    split
    · next none =>
      subst none
      have lowest : t = -1074 := by omega
      subst lowest
      cases s <;> exact .of_isNumber (u := .zero _) trivial
    · next some => exact packed_finite s (Nat.pos_of_ne_zero some) short least long
  · have target : Format.binary64.targetExponent (totalExponent (2 ^ 53) t) = t + 1 := by
      change max (((2 ^ 53).log2 : Int) + 1 + t - (53 : Nat)) (-1074) = t + 1
      rw [Nat.log2_two_pow]
      omega
    have carried : second = (ExtendedMantissa.ofMantissaAndAccuracy (2 ^ 53) .exact >>> 1, t + 1) := by
      have shift := shiftToTargetExponent_eq target
      rwa [show (t + 1 - t).toNat = 1 by omega, max_eq_right (by omega)] at shift
    rw [carried]
    have whole : ((t + 1) + 1074) * 2 ^ 52 + ((2 ^ 52 : Nat) : Int) = (t + 1074) * 2 ^ 52 + (2 ^ 53 : Nat) := by
      omega
    rw [← whole]
    exact packed_finite (m := 2 ^ 52) s (by decide) (by decide) (by omega) (.inr le_rfl)

theorem packed_roundWithAccuracy {m : Nat} {e : Int} {p : Nat} (s : Sign) (positive : 0 < m)
    (least : -(1074 + p) ≤ e)
    (below : e ≤ Format.binary64.targetExponent (totalExponent m e)) :
    Packed (roundWithAccuracy Format.binary64 s m e .exact)
      (s.apply (nearestRank p (m * 2 ^ (e + 1074 + p).toNat))) := by
  obtain ⟨t, exponent⟩ : ∃ t, Format.binary64.targetExponent (totalExponent m e) = t := ⟨_, rfl⟩
  obtain ⟨n, scale⟩ : ∃ n, m * 2 ^ (e + 1074 + p).toNat = n := ⟨_, rfl⟩
  obtain ⟨q, quotient⟩ : ∃ q, (ExtendedMantissa.ofMantissaAndAccuracy m .exact >>> (t - e).toNat).roundedMantissa = q :=
    ⟨_, rfl⟩
  have target := targetExponent_eq positive least
  rw [exponent] at below target
  rw [scale] at target ⊢
  obtain ⟨k, places⟩ : ∃ k, max (n.log2 - 52) p = k := ⟨_, rfl⟩
  have nearest : q = nearestEven n k := by
    have shifts : k = (t - e).toNat + (e + 1074 + p).toNat := by omega
    rw [← quotient, (shifted_exact m (t - e).toNat).roundedMantissa, ← scale, shifts, nearestEven_mul]
  have short : q ≤ 2 ^ 53 := by
    rw [nearest]
    exact nearestEven_le_of_log2 (by omega)
  have long : t = -1074 ∨ 2 ^ 52 ≤ q := by
    rcases eq_or_ne k p with lowest | scaled
    · exact .inl (by omega)
    · rw [nearest]
      exact .inr (le_nearestEven_of_log2 (by omega))
  have carried := packed_carried s short (by omega) long
  have whole : (nearestPlace p n : Int) = (t + 1074) * 2 ^ 52 + q := by
    unfold nearestPlace
    rw [places, nearest]
    have above : p ≤ k := by omega
    push_cast [above]
    rw [target, ← places]
    push_cast
    ring
  unfold roundWithAccuracy nearestRank
  rw [shiftToTargetExponent_eq exponent, max_eq_right below, whole]
  simp only [quotient]
  exact carried

theorem packed_round {m : Nat} {e : Int} (p : Nat) (s : Sign) (positive : 0 < m) (least : -(1074 + p) ≤ e) :
    Packed (UnpackedFloat.round Format.binary64 s m e)
      (s.apply (nearestRank p (m * 2 ^ (e + 1074 + p).toNat))) := by
  obtain ⟨t, target⟩ : ∃ t, Format.binary64.targetExponent (totalExponent m e) = t := ⟨_, rfl⟩
  obtain ⟨a, shift⟩ : ∃ a, (e - t).toNat = a := ⟨_, rfl⟩
  have lowest : -1074 ≤ t := by
    rw [← target]
    exact le_max_right _ _
  have same : totalExponent (m * 2 ^ a) (e - a) = totalExponent m e := by
    unfold totalExponent
    rw [log2_mul_pow positive.ne']
    push_cast
    ring
  have scale : m * 2 ^ a * 2 ^ (e - a + 1074 + p).toNat = m * 2 ^ (e + 1074 + p).toNat := by
    rw [Nat.mul_assoc, ← pow_add]
    congr 2
    omega
  have rounded := packed_roundWithAccuracy (m := m * 2 ^ a) (e := e - a) (p := p) s (by positivity) (by omega)
    (by rw [same, target]; omega)
  rw [scale] at rounded
  unfold UnpackedFloat.round decreaseExponent
  simp only [target, shift, Nat.shiftLeft_eq]
  exact rounded

end DriftField.Scalar
