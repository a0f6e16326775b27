import Mathlib
import DriftField.Proofs.Draw
/-!
Whole parts as machine words: conversion cuts a number that is not negative off to its whole units, as many as a word
holds, so it keeps the order; and a whole number of up to 53 bits comes back.
-/

namespace DriftField.Scalar

open Float.Model Float.Model.UnpackedFloat

variable {a b v : Float}

theorem toNat_ofNatClamp (n : Nat) : (UInt64.ofNatClamp n).toNat = min n (UInt64.size - 1) := by
  unfold UInt64.ofNatClamp
  split
  · next small =>
    exact (Nat.min_eq_left (Nat.le_sub_one_of_lt small)).symm
  · next great =>
    exact (Nat.min_eq_right (Nat.le_of_not_lt fun less => great (Nat.lt_of_le_pred (by decide) less.le))).symm

theorem roundToInt_eq {m : Nat} {e : Int} (least : -1074 ≤ e) :
    (UnpackedFloat.roundToInt .positive m e).toNat = m * 2 ^ (e + 1074).toNat / 2 ^ 1074 := by
  have cut : (UnpackedFloat.roundToInt .positive m e).toNat =
      m * 2 ^ (e - 0).toNat / 2 ^ (0 - (e - (e - 0).toNat)).toNat := by
    rw [← Nat.shiftLeft_eq, ← (shifted_exact _ _).mantissa]
    rfl
  rw [cut]
  rcases lt_or_ge e 0 with negative | nonnegative
  · have places : (0 - (e - (e - 0).toNat)).toNat + (e + 1074).toNat = 1074 := by omega
    rw [← places, pow_add, Nat.mul_div_mul_right _ _ (by positivity), Int.toNat_of_nonpos (by omega), pow_zero,
      Nat.mul_one]
  · have places : (e + 1074).toNat = (e - 0).toNat + 1074 := by omega
    have none : (0 - (e - (e - 0).toNat)).toNat = 0 := by omega
    rw [places, none, pow_add, ← Nat.mul_assoc, Nat.mul_div_cancel _ (by positivity), pow_zero, Nat.div_one]

theorem toNat_toUInt64 (plain : Unsigned v) : v.toUInt64.toNat = min (magnitude v / 2 ^ 1074) (UInt64.size - 1) := by
  have whole : (UnpackedFloat.toInt 0 (UInt64.size - 1) v.toModel.unpack).toNat = magnitude v / 2 ^ 1074 := by
    cases plain with
    | zero s value =>
        rw [value, Unsigned.magnitude_zero value, Nat.zero_div]
        rfl
    | finite m e positive value canonical =>
        rw [value, Unsigned.magnitude_finite value]
        exact roundToInt_eq canonical.least
  change (UInt64.ofNatClamp (UnpackedFloat.toInt 0 (UInt64.size - 1) v.toModel.unpack).toNat).toNat = _
  rw [toNat_ofNatClamp, whole]

theorem toNat_toUInt64_mono (left : Unsigned a) (right : Unsigned b) (order : a ≤ b) :
    a.toUInt64.toNat ≤ b.toUInt64.toNat := by
  rw [le_iff_magnitude left right] at order
  rw [toNat_toUInt64 left, toNat_toUInt64 right]
  exact min_le_min_right _ (Nat.div_le_div_right order)

theorem unsigned_toFloat_bound {w : UInt64} (bound : w.toNat ≤ 2 ^ 53) :
    Unsigned w.toFloat ∧ magnitude w.toFloat = w.toNat * 2 ^ 1074 := by
  rcases bound.lt_or_eq with short | same
  · exact unsigned_toFloat short
  · have greatest : w = 9007199254740992 := UInt64.toNat_inj.mp same
    have value : (9007199254740992 : UInt64).toFloat.toModel.unpack = .finite .positive (2 ^ 52) 1 (by decide) := by rfl
    have canonical : Canonical (2 ^ 52) 1 := ⟨by decide, by decide, by decide, .inr le_rfl⟩
    rw [greatest]
    refine ⟨.finite _ _ _ value canonical, ?_⟩
    have size : 2 ^ 52 * 2 ^ 1 = (9007199254740992 : UInt64).toNat := by rfl
    rw [Unsigned.magnitude_finite value, show (1 + 1074 : Int).toNat = 1 + 1074 from rfl, pow_add, ← Nat.mul_assoc,
      size]

theorem unsigned_whole {n : Nat} (short : n ≤ 2 ^ 53) :
    Unsigned n.toUInt64.toFloat ∧ n.toUInt64.toFloat.toUInt64.toNat = n := by
  have word : n.toUInt64.toNat = n := UInt64.toNat_ofNat_of_lt' (short.trans_lt (by decide))
  obtain ⟨plain, size⟩ := unsigned_toFloat_bound (word.trans_le short)
  refine ⟨plain, ?_⟩
  rw [toNat_toUInt64 plain, size, word, Nat.mul_div_cancel _ (by positivity)]
  exact Nat.min_eq_left (short.trans (by decide))

end DriftField.Scalar
