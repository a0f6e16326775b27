import Mathlib
import DriftField.Decimal.Shortest
import DriftField.Proofs.Scalar.Bits
/-!
The shortest decimal form of a magnitude reads back as that magnitude: each grid is tried out before it is
taken, and the number written in full is a whole number of units, which reading does not round.
-/

namespace DriftField.Decimal

open Scalar

theorem power_eq (b n : Nat) : power b n = b ^ n := rfl

/-- A quotient that is a whole number of units, of at most 53 significant bits, is read exactly. -/
theorem nearestBits_of_units {num den s k : Nat} (positive : 0 < den)
    (units : num <<< 1074 = s <<< k * den) (bits : (s <<< k).log2 - 52 = k)
    (finite : k * 2 ^ 52 + s ≤ infinityBits) :
    nearestBits num den = k * 2 ^ 52 + s := by
  have quotient : num <<< 1074 / den = s <<< k := by
    rw [units, Nat.mul_div_cancel _ positive]
  have grid : 0 < den <<< k := by
    rw [Nat.shiftLeft_eq]
    positivity
  have scaled : num <<< 1074 = s * den <<< k := by
    rw [units, Nat.shiftLeft_eq, Nat.shiftLeft_eq]
    ring
  unfold nearestBits
  simp only [quotient, bits]
  rw [scaled, Nat.mul_div_cancel _ grid, Nat.mul_mod_left, Nat.shiftLeft_eq]
  rw [if_neg (by simp [grid.ne]), Nat.min_eq_left finite]

theorem log2_shiftLeft {s : Nat} (nonzero : s ≠ 0) (k : Nat) :
    (s <<< k).log2 = s.log2 + k := by
  induction k with
  | zero => rfl
  | succ k induction =>
      have shifted : s <<< k ≠ 0 := by
        rw [Nat.shiftLeft_eq]
        positivity
      rw [Nat.shiftLeft_succ, Nat.log2_two_mul shifted, induction]
      omega

theorem log2_units {v : Float} (nonzero : significand v ≠ 0) :
    (significand v <<< scale v).log2 - 52 = scale v := by
  have bound := significand_lt v
  have short : (significand v).log2 < 53 := (Nat.log2_lt nonzero).mpr bound
  rw [log2_shiftLeft nonzero]
  rcases Nat.eq_zero_or_pos (scale v) with none | some
  · omega
  · have long := (Nat.le_log2 nonzero).mpr (le_significand some)
    omega

theorem toBits_lt_infinityBits {v : Float} (finite : isFinite v = true)
    (h : isNegative v = false) : v.toBits.toNat < infinityBits := by
  obtain ⟨s, e, m, decoding⟩ := exists_decoding v
  rw [isFinite_eq decoding] at finite
  rw [isNegative_eq decoding] at h
  have size := toNat_assembled s e m
  rw [← decoding.bits] at size
  have bound := m.isLt
  have bound' := e.isLt
  have : e.toNat ≠ 2047 := fun top => of_decide_eq_true finite (BitVec.eq_of_toNat_eq top)
  cases s with
  | negative => cases h
  | positive =>
      change v.toBits.toNat = 0 * 2 ^ 63 + _ + _ at size
      unfold infinityBits
      omega

theorem nearest_of_units {num den : Nat} {v : Float} (positive : 0 < den)
    (finite : isFinite v = true) (nonnegative : isNegative v = false)
    (nonzero : significand v ≠ 0)
    (units : num <<< 1074 = significand v <<< scale v * den) :
    nearest num den = v := by
  have bits := toBits_eq_scale_add_significand nonnegative
  have bound := toBits_lt_infinityBits finite nonnegative
  unfold nearest
  rw [nearestBits_of_units positive units (log2_units nonzero) (by omega), ← bits]
  rw [show v.toBits.toNat.toUInt64 = v.toBits by simp]
  exact ofBits_toBits v

theorem toFloat_exact {v : Float} (finite : isFinite v = true)
    (nonnegative : isNegative v = false) (nonzero : (v == 0.0) = false) :
    (exact v).toFloat = v := by
  have significant := significand_ne_zero nonnegative nonzero
  have coefficient : ∀ n e, (significand v <<< n) * power 5 e ≠ 0 := by
    intro n e
    rw [power_eq, Nat.shiftLeft_eq]
    positivity
  rcases Nat.lt_or_ge (scale v) 1074 with below | above
  · obtain ⟨n, places⟩ : ∃ n, 1074 - min 1074 (scale v) = n + 1 :=
      ⟨1073 - scale v, by omega⟩
    have written : exact v = ⟨significand v <<< 0 * power 5 (n + 1), .negSucc n⟩ := by
      unfold exact
      simp only [places, show scale v - 1074 = 0 by omega]
      rfl
    have near : ¬ farExponent + (significand v <<< 0 * power 5 (n + 1)).log2 < n := by
      rw [Nat.not_lt]
      have : n + 1 ≤ (significand v <<< 0 * power 5 (n + 1)).log2 := by
        rw [Nat.le_log2 (coefficient _ _), power_eq, Nat.shiftLeft_zero]
        calc
          2 ^ (n + 1) ≤ 5 ^ (n + 1) := Nat.pow_le_pow_left (by decide) _
          _ ≤ significand v * 5 ^ (n + 1) :=
            Nat.le_mul_of_pos_left _ (Nat.pos_of_ne_zero significant)
      omega
    rw [written]
    unfold toFloat
    simp only
    rw [if_neg (coefficient _ _), if_neg near]
    apply nearest_of_units (by rw [power_eq]; positivity) finite nonnegative significant
    have split : scale v + (n + 1) = 1074 := by omega
    rw [power_eq, power_eq, Nat.shiftLeft_zero, Nat.shiftLeft_eq, Nat.shiftLeft_eq,
      ← split, pow_add, show 10 = 5 * 2 from rfl, mul_pow]
    ring
  · have whole : 1074 - min 1074 (scale v) = 0 := by omega
    have written : exact v = ⟨significand v <<< (scale v - 1074) * power 5 0, .ofNat 0⟩ := by
      unfold exact
      simp only [whole]
      rfl
    rw [written]
    unfold toFloat
    simp only
    rw [if_neg (coefficient _ _), if_neg (by decide)]
    apply nearest_of_units (by decide) finite nonnegative significant
    obtain ⟨n, scaled⟩ := Nat.exists_eq_add_of_le' above
    rw [scaled, Nat.add_sub_cancel, Nat.shiftLeft_add]
    simp only [power_eq, pow_zero, Nat.mul_one]

theorem Tie.choose_eq_or (tie : Tie) (c r span : Nat) :
    tie.choose c r span = c ∨ tie.choose c r span = c + 1 := by
  unfold Tie.choose
  grind

theorem toFloat_of_neighbour {tie : Tie} {v : Float} {p : Int} {c r span : Nat}
    {d : Decimal} (nonzero : (v == 0.0) = false)
    (found : (match toFloat ⟨c, p⟩ == v, toFloat ⟨c + 1, p⟩ == v with
      | true, true => some ⟨tie.choose c r span, p⟩
      | true, false => some ⟨c, p⟩
      | false, true => some ⟨c + 1, p⟩
      | false, false => none) = some d) : d.toFloat = v := by
  split at found
  · next below above =>
    cases found
    rcases tie.choose_eq_or c r span with chosen | chosen
    · rw [chosen]
      exact eq_of_beq_of_nonzero below nonzero
    · rw [chosen]
      exact eq_of_beq_of_nonzero above nonzero
  · next below above =>
    cases found
    exact eq_of_beq_of_nonzero below nonzero
  · next below above =>
    cases found
    exact eq_of_beq_of_nonzero above nonzero
  · cases found

theorem toFloat_of_onGrid? {tie : Tie} {v : Float} {p : Int} {d : Decimal}
    (nonzero : (v == 0.0) = false) (found : onGrid? tie v p = some d) :
    d.toFloat = v :=
  toFloat_of_neighbour nonzero found

theorem toFloat_firstOnGrid {v : Float} (tie : Tie) (finite : isFinite v = true)
    (nonnegative : isNegative v = false) (nonzero : (v == 0.0) = false)
    (p : Int) (tries : Nat) : (firstOnGrid tie v p tries).toFloat = v := by
  induction tries generalizing p with
  | zero => exact toFloat_exact finite nonnegative nonzero
  | succ tries induction =>
      unfold firstOnGrid
      cases found : onGrid? tie v p with
      | none => exact induction (p - 1)
      | some d => exact toFloat_of_onGrid? nonzero found

theorem toFloat_shortest {v : Float} (tie : Tie) (finite : isFinite v = true)
    (nonnegative : isNegative v = false) : (shortest tie v).toFloat = v := by
  unfold shortest
  split
  · next zero =>
    rw [eq_zero_of_beq nonnegative zero]
    rfl
  · next nonzero =>
    exact toFloat_firstOnGrid tie finite nonnegative (by simpa using nonzero) _ _

end DriftField.Decimal
