import Mathlib
import DriftField.Scalar.Parts
import DriftField.Scalar.Order
/-!
Binary64 numbers as bit patterns. A number is its bits: a sign, an exponent and a fraction. Magnitude and
negation act on the sign alone, and numbers that compare equal are the same unless they are zeros.
-/

namespace DriftField.Scalar

open Float.Model Float.Model.UnpackedFloat

def assembled (s : Sign) (e : BitVec 11) (m : BitVec 52) : BitVec 64 :=
  packComponents Format.binary64 s e m

theorem toNat_assembled (s : Sign) (e : BitVec 11) (m : BitVec 52) :
    (assembled s e m).toNat =
      s.toBitVec.toNat * 2 ^ 63 + e.toNat * 2 ^ 52 + m.toNat := by
  have appended : (assembled s e m).toNat =
      (s.toBitVec.toNat <<< 11 ||| e.toNat) <<< 52 ||| m.toNat := by
    unfold assembled packComponents
    rw [BitVec.toNat_append, BitVec.toNat_append]
  rw [appended, ← Nat.shiftLeft_add_eq_or_of_lt e.isLt,
    ← Nat.shiftLeft_add_eq_or_of_lt m.isLt, Nat.shiftLeft_eq, Nat.shiftLeft_eq]
  ring

theorem exists_assembled (b : BitVec 64) : ∃ s e m, b = assembled s e m := by
  refine ⟨if b.toNat < 2 ^ 63 then .positive else .negative,
    BitVec.ofNat 11 (b.toNat / 2 ^ 52), BitVec.ofNat 52 b.toNat, ?_⟩
  apply BitVec.eq_of_toNat_eq
  rw [toNat_assembled]
  have bound := b.isLt
  split <;> simp [Sign.toBitVec] <;> omega

theorem unpackSign_assembled (s : Sign) (e : BitVec 11) (m : BitVec 52) :
    Sign.ofBitVec (@unpackSign Format.binary64 (assembled s e m)) = s := by
  have bound := e.isLt
  have bound' := m.isLt
  have top : (@unpackSign Format.binary64 (assembled s e m)).toNat =
      (assembled s e m).toNat >>> 63 % 2 := by
    simp [unpackSign]
  have sign : @unpackSign Format.binary64 (assembled s e m) = s.toBitVec := by
    apply BitVec.eq_of_toNat_eq
    rw [top, toNat_assembled]
    cases s <;> simp [Sign.toBitVec] <;> omega
  rw [sign]
  cases s <;> rfl

def decoded (s : Sign) (e : BitVec 11) (m : BitVec 52) : UnpackedFloat :=
  if e = -1#11 then if m = 0#52 then .infinity s else .notANumber
  else if e = 0#11 then
    if h : m = 0#52 then .zero s
    else .finite s m.toNat (-1074) (by simpa [BitVec.toNat_pos, BitVec.pos_iff_ne_zero])
  else .finite s (2 ^ 52 + m.toNat) (e.toNat - 1075) (by positivity)

theorem toNat_leadingOne (m : BitVec 52) : (1#1 ++ m).toNat = 2 ^ 52 + m.toNat := by
  rw [BitVec.toNat_append, ← Nat.shiftLeft_add_eq_or_of_lt m.isLt]
  rfl

theorem unpack_assembled (s : Sign) (e : BitVec 11) (m : BitVec 52) :
    unpack Format.binary64 (assembled s e m) = decoded s e m := by
  have sign := unpackSign_assembled s e m
  simp only [assembled] at sign ⊢
  simp only [UnpackedFloat.unpack, decoded, unpackMantissa_packComponents,
    unpackExponent_packComponents, sign]
  split
  · rfl
  · split
    · next zero =>
      subst zero
      rfl
    · congr 1
      exact toNat_leadingOne m

theorem pack_decoded (s : Sign) (e : BitVec 11) (m : BitVec 52)
    (canonical : e = -1#11 → m = 0#52) :
    pack Format.binary64 (decoded s e m) = assembled s e m := by
  unfold decoded
  have bound := m.isLt
  split
  · next top =>
    rw [if_pos (canonical top), top, canonical top]
    rfl
  · next top =>
    have bound' : e.toNat < 2047 := by
      have := e.isLt
      have : e.toNat ≠ 2047 := fun h => top (BitVec.eq_of_toNat_eq h)
      omega
    split
    · next zero =>
      split
      · next none =>
        rw [zero, none]
        rfl
      · next some =>
        have short : m.toNat.log2 < 52 := (Nat.log2_lt (by simpa [BitVec.toNat_eq] using some)).mpr bound
        have : ¬ m.toNat.log2 + 1 = Format.binary64.mantissaBits := by
          change ¬ m.toNat.log2 + 1 = 53
          omega
        unfold UnpackedFloat.pack
        simp only
        rw [if_neg (by decide), if_neg this, zero, BitVec.ofNat_toNat, BitVec.setWidth_eq]
        rfl
    · next some =>
      have long : (2 ^ 52 + m.toNat).log2 = 52 := by
        rw [Nat.log2_eq_iff (by omega)]
        omega
      have exponent : ((e.toNat : Int) - 1075 + (Format.binary64.exponentBias : Nat) +
          (Format.binary64.mantissaBitsWithoutImplicit : Nat)).toNat = e.toNat := by
        change ((e.toNat : Int) - 1075 + (1023 : Nat) + (52 : Nat)).toNat = e.toNat
        omega
      unfold UnpackedFloat.pack
      simp only [exponent, long]
      rw [if_neg (by change ¬ 2048 ≤ _; omega), if_pos (by rfl)]
      unfold assembled
      congr 1
      · rw [BitVec.ofNat_toNat, BitVec.setWidth_eq]
      · apply BitVec.eq_of_toNat_eq
        rw [BitVec.toNat_ofNat]
        omega

theorem abs_decoded (s : Sign) (e : BitVec 11) (m : BitVec 52) :
    (decoded s e m).abs = decoded .positive e m := by
  unfold decoded
  split
  · split <;> rfl
  · split
    · split <;> rfl
    · rfl

theorem neg_decoded (s : Sign) (e : BitVec 11) (m : BitVec 52) :
    (decoded s e m).neg = decoded (-s) e m := by
  unfold decoded
  split
  · split <;> rfl
  · split
    · split <;> rfl
    · rfl

theorem isFinite_decoded (s : Sign) (e : BitVec 11) (m : BitVec 52) :
    (decoded s e m).isFinite = decide (e ≠ -1#11) := by
  unfold decoded
  split
  · next top =>
    rw [decide_eq_false (not_not.mpr top)]
    split <;> rfl
  · next top =>
    rw [decide_eq_true top]
    split
    · split <;> rfl
    · rfl

/-- A number is what its bits stand for; the bits of no number have one form only. -/
structure Decoding (v : Float) (s : Sign) (e : BitVec 11) (m : BitVec 52) : Prop where
  bits : v.toBits.toBitVec = assembled s e m
  value : v.toModel.unpack = decoded s e m
  canonical : e = -1#11 → m ≠ 0#52 → v.toBits.toBitVec = packedNaN Format.binary64

theorem exists_decoding (v : Float) : ∃ s e m, Decoding v s e m := by
  obtain ⟨s, e, m, bits⟩ := exists_assembled v.toBits.toBitVec
  refine ⟨s, e, m, bits, ?_, ?_⟩
  · have value := unpack_assembled s e m
    rwa [← bits] at value
  · intro top some
    apply v.toModel.valid.eq_packedNaN
    · rw [show v.toModel.toBits.toBitVec = assembled s e m from bits]
      simpa [assembled] using top
    · rw [show v.toModel.toBits.toBitVec = assembled s e m from bits]
      simpa [assembled] using some

theorem ext_toBits {v w : Float} (bits : v.toBits.toBitVec = w.toBits.toBitVec) : v = w := by
  obtain ⟨⟨v, hv⟩⟩ := v
  obtain ⟨⟨w, hw⟩⟩ := w
  have : v = w := UInt64.eq_of_toBitVec_eq bits
  subst this
  rfl

theorem pack_unpack (v : Float) :
    UnpackedFloat.pack Format.binary64 v.toModel.unpack = v.toBits.toBitVec := by
  obtain ⟨s, e, m, decoding⟩ := exists_decoding v
  by_cases none : e = -1#11 ∧ m ≠ 0#52
  · rw [decoding.canonical none.1 none.2, decoding.value, decoded, if_pos none.1,
      if_neg none.2]
    rfl
  · rw [decoding.value, decoding.bits]
    apply pack_decoded
    intro top
    by_contra some
    exact none ⟨top, some⟩

theorem eq_of_unpack_eq {v w : Float} (h : v.toModel.unpack = w.toModel.unpack) : v = w := by
  apply ext_toBits
  rw [← pack_unpack, h, pack_unpack]

theorem ofBits_toBits (v : Float) : Float.ofBits v.toBits = v :=
  ext_toBits (pack_unpack v)

theorem isNegative_eq {v : Float} (decoding : Decoding v s e m) :
    isNegative v = (s == .negative) := by
  have size := toNat_assembled s e m
  rw [← decoding.bits] at size
  have bound := e.isLt
  have bound' := m.isLt
  have top : (v.toBits >>> 63).toNat = s.toBitVec.toNat := by
    rw [UInt64.toNat_shiftRight]
    change v.toBits.toBitVec.toNat >>> 63 = _
    rw [size, Nat.shiftRight_eq_div_pow]
    omega
  unfold isNegative
  rw [Bool.eq_iff_iff, beq_iff_eq, ← UInt64.toNat_inj, top]
  cases s <;> decide

theorem isFinite_eq {v : Float} (decoding : Decoding v s e m) :
    isFinite v = decide (e ≠ -1#11) := by
  change v.toModel.unpack.isFinite = _
  rw [decoding.value, isFinite_decoded]

theorem decoding_of_pack {v : Float} {s : Sign} {e : BitVec 11} {m : BitVec 52}
    (canonical : e = -1#11 → m = 0#52)
    (packed : v.toBits.toBitVec =
      UnpackedFloat.pack Format.binary64 (decoded s e m)) : Decoding v s e m := by
  have bits : v.toBits.toBitVec = assembled s e m :=
    packed.trans (pack_decoded s e m canonical)
  refine ⟨bits, ?_, fun top some => absurd (canonical top) some⟩
  have value := unpack_assembled s e m
  rwa [← bits] at value

theorem Decoding.abs {v : Float} (decoding : Decoding v s e m)
    (canonical : e = -1#11 → m = 0#52) : Decoding v.abs .positive e m := by
  apply decoding_of_pack canonical
  rw [← abs_decoded s, ← decoding.value]
  rfl

theorem Decoding.neg {v : Float} (decoding : Decoding v s e m)
    (canonical : e = -1#11 → m = 0#52) : Decoding (-v) (-s) e m := by
  apply decoding_of_pack canonical
  rw [← neg_decoded, ← decoding.value]
  rfl

theorem Decoding.canonical_of_negative {v : Float}
    (decoding : Decoding v .negative e m) : e = -1#11 → m = 0#52 := by
  intro top
  by_contra some
  have sizes := congrArg BitVec.toNat
    (decoding.bits.symm.trans (decoding.canonical top some))
  rw [toNat_assembled] at sizes
  have bound : (packedNaN Format.binary64).toNat < 2 ^ 63 := by decide
  change 1 * 2 ^ 63 + _ + _ = _ at sizes
  omega

theorem abs_eq_self {v : Float} (h : isNegative v = false) : v.abs = v := by
  obtain ⟨s, e, m, decoding⟩ := exists_decoding v
  rw [isNegative_eq decoding] at h
  cases s with
  | negative => cases h
  | positive =>
      apply ext_toBits
      rw [← pack_unpack v, decoding.value, ← abs_decoded .positive,
        ← decoding.value]
      rfl

theorem neg_abs {v : Float} (h : isNegative v = true) : -v.abs = v := by
  obtain ⟨s, e, m, decoding⟩ := exists_decoding v
  rw [isNegative_eq decoding] at h
  cases s with
  | positive => cases h
  | negative =>
      have canonical := decoding.canonical_of_negative
      apply ext_toBits
      rw [((decoding.abs canonical).neg canonical).bits, decoding.bits]
      rfl

theorem isNegative_abs (v : Float) : isNegative v.abs = false := by
  cases h : isNegative v with
  | false => rw [abs_eq_self h, h]
  | true =>
      obtain ⟨s, e, m, decoding⟩ := exists_decoding v
      rw [isNegative_eq decoding] at h
      cases s with
      | positive => cases h
      | negative =>
          rw [isNegative_eq (decoding.abs decoding.canonical_of_negative)]
          rfl

theorem isFinite_abs (v : Float) : isFinite v.abs = isFinite v := by
  cases h : isNegative v with
  | false => rw [abs_eq_self h]
  | true =>
      obtain ⟨s, e, m, decoding⟩ := exists_decoding v
      rw [isNegative_eq decoding] at h
      cases s with
      | positive => cases h
      | negative =>
          rw [isFinite_eq (decoding.abs decoding.canonical_of_negative),
            isFinite_eq decoding]

theorem not_isNaN_of_isFinite {v : Float} (h : isFinite v = true) :
    v.isNaN = false := by
  change v.toModel.unpack.isFinite = true at h
  change v.toModel.unpack.isNaN = false
  cases value : v.toModel.unpack with
  | notANumber => rw [value] at h; cases h
  | infinity s => rfl
  | zero s => rfl
  | finite s m e positive => rfl

theorem eq_of_compare_parts {e d : Int} {m n : Nat}
    (h : (compare e d).then (compare m n) = .eq) : e = d ∧ m = n := by
  rw [Ordering.then_eq_eq] at h
  exact ⟨compare_eq_iff_eq.mp h.1, compare_eq_iff_eq.mp h.2⟩

theorem eq_or_zero_of_compare_eq {u w : UnpackedFloat}
    (h : u.compare w = some .eq) : u = w ∨ ∃ s, w = .zero s := by
  cases w with
  | notANumber => cases u <;> cases h
  | zero s => exact .inr ⟨s, rfl⟩
  | infinity t =>
      left
      cases u with
      | notANumber => cases h
      | infinity s => cases s <;> cases t <;> first | rfl | cases h
      | zero s => cases t <;> cases h
      | finite s m e positive => cases s <;> cases t <;> cases h
  | finite t n d positive =>
      left
      cases u with
      | notANumber => cases h
      | infinity s => cases s <;> cases h
      | zero s => cases t <;> cases h
      | finite s m e positive' =>
          cases s <;> cases t
          case negative.positive => cases h
          case positive.negative => cases h
          case positive.positive =>
            obtain ⟨rfl, rfl⟩ := eq_of_compare_parts (Option.some.inj h)
            rfl
          case negative.negative =>
            have swapped := Option.some.inj h
            rw [Ordering.swap_eq_eq] at swapped
            obtain ⟨rfl, rfl⟩ := eq_of_compare_parts swapped
            rfl

/-- Numbers that compare equal are the same, unless they are zeros. -/
theorem eq_of_beq_of_nonzero {v w : Float} (h : (v == w) = true)
    (nonzero : (w == 0.0) = false) : v = w := by
  change (v.toModel.unpack.compare w.toModel.unpack == some .eq) = true at h
  rcases eq_or_zero_of_compare_eq (eq_of_beq h) with same | ⟨s, zero⟩
  · exact eq_of_unpack_eq same
  · change (w.toModel.unpack.compare _ == some .eq) = false at nonzero
    rw [zero] at nonzero
    cases nonzero

theorem toNat_toBits_lt {v : Float} (h : isNegative v = false) :
    v.toBits.toNat < 2 ^ 63 := by
  unfold isNegative at h
  rw [beq_eq_false_iff_ne, ne_eq, ← UInt64.toNat_inj, UInt64.toNat_shiftRight] at h
  have bound := v.toBits.toNat_lt
  change ¬ v.toBits.toNat >>> 63 = 1 at h
  rw [Nat.shiftRight_eq_div_pow] at h
  omega

theorem leadingBit_eq : leadingBit = 2 ^ 52 := by decide

/-- The bits of a magnitude: a carry out of the significand is a carry into the exponent. -/
theorem toBits_eq_scale_add_significand {v : Float} (h : isNegative v = false) :
    v.toBits.toNat = scale v * 2 ^ 52 + significand v := by
  have bound := toNat_toBits_lt h
  have field : exponentField v = v.toBits.toNat / 2 ^ 52 := by
    unfold exponentField
    rw [UInt64.toNat_shiftRight]
    change v.toBits.toNat >>> 52 % 2048 = _
    rw [Nat.shiftRight_eq_div_pow]
    omega
  unfold significand scale
  rw [leadingBit_eq]
  split <;> omega

theorem significand_lt (v : Float) : significand v < 2 ^ 53 := by
  unfold significand
  rw [leadingBit_eq]
  split <;> omega

theorem le_significand {v : Float} (scaled : 0 < scale v) :
    2 ^ 52 ≤ significand v := by
  unfold scale at scaled
  unfold significand
  rw [leadingBit_eq]
  split <;> omega

theorem eq_zero_of_beq {v : Float} (nonnegative : isNegative v = false)
    (zero : (v == 0.0) = true) : v = 0.0 := by
  change (v.toModel.unpack.compare (.zero .positive) == some .eq) = true at zero
  cases value : v.toModel.unpack with
  | notANumber => rw [value] at zero; cases zero
  | infinity s => rw [value] at zero; cases s <;> cases zero
  | finite s m e positive => rw [value] at zero; cases s <;> cases zero
  | zero s =>
      cases s with
      | positive => exact eq_of_unpack_eq value
      | negative =>
          have minus : v = -0.0 := eq_of_unpack_eq value
          rw [minus] at nonnegative
          cases nonnegative

theorem significand_ne_zero {v : Float} (nonnegative : isNegative v = false)
    (nonzero : (v == 0.0) = false) : significand v ≠ 0 := by
  intro none
  have bits := toBits_eq_scale_add_significand nonnegative
  have unscaled : scale v = 0 := by
    by_contra scaled
    have := le_significand (Nat.pos_of_ne_zero scaled)
    omega
  have zero : v = 0.0 := by
    apply ext_toBits
    apply BitVec.eq_of_toNat_eq
    change v.toBits.toNat = 0
    omega
  rw [zero] at nonzero
  revert nonzero
  decide

end DriftField.Scalar
