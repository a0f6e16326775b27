import Mathlib
import DriftField.Vec
import DriftField.Proofs.Scalar.Product
/-!
Numbers with a plus sign. A square is one; so are the sum of two of them and the root of one, however they are rounded.
The length of a finite vector is therefore a number. Their words stand in the order of the numbers, and a step forward
leads to a greater word or nowhere.
-/

namespace DriftField

namespace Scalar

open Float.Model Float.Model.UnpackedFloat

variable {u w : UnpackedFloat}

inductive Plus : UnpackedFloat → Prop
  | infinity : Plus (.infinity .positive)
  | zero : Plus (.zero .positive)
  | finite (m : Nat) (e : Int) (positive : 0 < m) : Plus (.finite .positive m e positive)

theorem plus_decoded {e : BitVec 11} {m : BitVec 52} (canonical : e = -1#11 → m = 0#52) :
    Plus (decoded .positive e m) := by
  unfold decoded
  split
  · next top =>
    rw [if_pos (canonical top)]
    exact .infinity
  · split
    · split
      · exact .zero
      · exact .finite _ _ _
    · exact .finite _ _ _

/-- Packing takes every form to bits that stand for a number: a great exponent becomes infinity. -/
theorem exists_pack_finite (s : Sign) (m : Nat) (e : Int) (positive : 0 < m) :
    ∃ e' m', (e' = -1#11 → m' = 0#52) ∧
      UnpackedFloat.pack Format.binary64 (.finite s m e positive) = assembled s e' m' := by
  unfold UnpackedFloat.pack
  dsimp only
  split
  · exact ⟨-1#11, 0#52, fun _ => rfl, rfl⟩
  · next small =>
    split
    · refine ⟨_, _, fun top => absurd top ?_, rfl⟩
      change ¬ 2048 ≤ _ at small
      intro top
      have field := congrArg BitVec.toNat top
      rw [BitVec.toNat_ofNat] at field
      change _ % 2048 = 2047 at field
      omega
    · exact ⟨0#11, _, fun top => absurd top (by decide), rfl⟩

namespace Plus

theorem isNaN (plus : Plus u) : u.isNaN = false := by
  cases plus <;> rfl

theorem repacked (plus : Plus u) :
    Plus (UnpackedFloat.unpack Format.binary64 (UnpackedFloat.pack Format.binary64 u)) := by
  cases plus with
  | infinity =>
      rw [unpack_pack (u := .infinity .positive) trivial]
      exact .infinity
  | zero =>
      rw [unpack_pack (u := .zero .positive) trivial]
      exact .zero
  | finite m e positive =>
      obtain ⟨e', m', canonical, packed⟩ := exists_pack_finite .positive m e positive
      rw [packed, unpack_assembled]
      exact plus_decoded canonical

theorem rounded (m : Nat) (e : Int) (a : Accuracy) : Plus (roundWithAccuracy Format.binary64 .positive m e a) := by
  unfold roundWithAccuracy
  dsimp only
  split
  · exact .zero
  · exact .finite _ _ _

theorem normalized {n : Int} {e : Int} (positive : 0 < n) :
    Plus (UnpackedFloat.normalize Format.binary64 n e .positive) := by
  unfold UnpackedFloat.normalize
  rw [compare_gt_iff_gt.mpr positive]
  exact rounded _ _ _

theorem decreased_pos {m : Nat} (positive : 0 < m) (e d : Int) :
    0 < Sign.positive.apply ((decreaseExponent m e d).1 : Int) := by
  change 0 < ((m <<< (e - d).toNat : Nat) : Int)
  rw [Nat.shiftLeft_eq]
  positivity

theorem mul_self (finite : u.isFinite = true) : Plus (UnpackedFloat.mul Format.binary64 u u) := by
  cases u with
  | notANumber => cases finite
  | infinity s => cases finite
  | zero s => cases s <;> exact .zero
  | finite s m e positive => cases s <;> exact rounded _ _ _

theorem add (left : Plus u) (right : Plus w) : Plus (UnpackedFloat.add Format.binary64 u w) := by
  cases left with
  | infinity => cases right <;> exact .infinity
  | zero =>
      cases right with
      | infinity => exact .infinity
      | zero => exact .zero
      | finite n d positive => exact .finite _ _ _
  | finite m e positive =>
      cases right with
      | infinity => exact .infinity
      | zero => exact .finite _ _ _
      | finite n d positive' =>
          exact normalized (Int.add_pos (decreased_pos positive _ _) (decreased_pos positive' _ _))

theorem sqrt (plus : Plus u) : Plus (UnpackedFloat.sqrt Format.binary64 u) := by
  cases plus with
  | infinity => exact .infinity
  | zero => exact .zero
  | finite m e positive => exact rounded _ _ _

end Plus

variable {a b c v step : Float}

theorem plus_of_pos (positive : 0.0 < v) : Plus v.toModel.unpack := by
  obtain ⟨-, number⟩ := not_isNaN_of_lt positive
  have form := isNumber number
  rw [lt_iff_rank (by decide) number] at positive
  change 0 < place v.toModel.unpack at positive
  cases value : v.toModel.unpack with
  | notANumber =>
      rw [value] at form
      cases form
  | infinity s =>
      cases s with
      | positive => exact .infinity
      | negative =>
          rw [value] at positive
          exact absurd positive (by decide)
  | zero s =>
      rw [value] at positive
      exact absurd positive (lt_irrefl 0)
  | finite s m e positive' =>
      cases s with
      | positive => exact .finite m e positive'
      | negative =>
          rw [value] at positive form
          have above := Canonical.place_pos form positive'
          exact absurd positive (neg_lt_zero.mpr above).not_gt

theorem sign_of_plus {s : Sign} {e : BitVec 11} {m : BitVec 52} (plus : Plus (decoded s e m)) :
    s = .positive ∧ (e = -1#11 → m = 0#52) := by
  unfold decoded at plus
  split at plus
  · split at plus
    · next none =>
      cases plus
      exact ⟨rfl, fun _ => none⟩
    · cases plus
  · next top =>
    refine ⟨?_, fun infinite => absurd infinite top⟩
    split at plus
    · split at plus <;> cases plus <;> rfl
    · cases plus
      rfl

/-- The word of such a number counts the numbers below it. -/
theorem Plus.toNat_toBits (plus : Plus v.toModel.unpack) : (v.toBits.toNat : Int) = rank v := by
  obtain ⟨s, e, m, decoding⟩ := exists_decoding v
  unfold rank
  rw [decoding.value] at plus ⊢
  obtain ⟨rfl, canonical⟩ := sign_of_plus plus
  have word : v.toBits.toNat = 0 * 2 ^ 63 + e.toNat * 2 ^ 52 + m.toNat :=
    (congrArg BitVec.toNat decoding.bits).trans (toNat_assembled .positive e m)
  rw [word]
  unfold decoded
  split_ifs with top none bottom none
  · rw [top, none]
    rfl
  · exact absurd (canonical top) none
  · rw [bottom, none]
    rfl
  · rw [bottom]
    change _ = (-1074 + 1074 : Int) * 2 ^ 52 + (m.toNat : Int)
    simp
  · change _ = ((e.toNat : Int) - 1075 + 1074) * 2 ^ 52 + ((2 ^ 52 + m.toNat : Nat) : Int)
    push_cast
    ring

/-- A step forward leads to a greater word, unless it is lost in rounding. -/
theorem Plus.stay_or_grow (plus : Plus v.toModel.unpack) (positive : 0.0 < step) :
    v + step = v ∨ v.toBits < (v + step).toBits := by
  have sum : Plus (v + step).toModel.unpack := (plus.add (plus_of_pos positive)).repacked
  have order := le_add_of_nonneg (a := v) (le_of_lt positive) sum.isNaN
  rw [le_iff_rank plus.isNaN sum.isNaN, ← plus.toNat_toBits, ← sum.toNat_toBits] at order
  rcases (Int.ofNat_le.mp order).lt_or_eq with grows | stays
  · exact .inr (UInt64.lt_iff_toNat_lt.mpr grows)
  · exact .inl (ext_toBits (BitVec.eq_of_toNat_eq stays.symm))

/-! Sums of finite numbers that are not negative. -/

theorem add_eq_of_magnitude (left : Unsigned a) (right : Unsigned b) (sum : Unsigned c)
    (exact : magnitude c = magnitude a + magnitude b) : Unsigned (a + b) ∧ magnitude (a + b) = magnitude c := by
  have weighs : weight c.toModel.unpack = weight a.toModel.unpack + weight b.toModel.unpack := by
    rw [left.weight_eq, right.weight_eq, sum.weight_eq, exact, Nat.cast_add]
  obtain ⟨finite, same⟩ := add_exact left.isFinite right.isFinite sum.isFinite weighs
  have nonnegative := sum.nonneg
  rw [le_iff_weight (by decide) sum.isNaN, ← same,
    ← le_iff_weight (by decide) (not_isNaN_of_isFinite finite)] at nonnegative
  exact ⟨unsigned nonnegative finite, congrArg Int.natAbs same⟩

/-- What a sum reaches exactly it reaches rounded. -/
theorem le_add_of_magnitude (left : Unsigned a) (right : Unsigned b) (bound : Unsigned c)
    (reached : magnitude c ≤ magnitude a + magnitude b) : c ≤ a + b := by
  have number := isNaN_add_of_isFinite left.isNaN right.isFinite
  rw [le_iff_rank bound.isNaN number, (isNaN_add.mp number).rank_add, left.weight_eq, right.weight_eq]
  unfold rank
  rw [place_eq_rounded bound.isNumber, bound.weight_eq]
  exact rounded_mono (by exact_mod_cast reached)

end Scalar

open Scalar

theorem Vec.isNaN_length {v : Vec} (finite : v.isFinite = true) : v.length.isNaN = false := by
  obtain ⟨left, right⟩ := Bool.and_eq_true_iff.mp finite
  have square {x : Float} (finite : Scalar.isFinite x = true) : Plus (x * x).toModel.unpack :=
    (Plus.mul_self finite).repacked
  exact ((square left).add (square right)).repacked.sqrt.repacked.isNaN

end DriftField
