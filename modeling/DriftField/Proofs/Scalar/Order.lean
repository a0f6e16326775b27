import Mathlib
import DriftField.Proofs.Scalar.Bits
/-!
The order of binary64 numbers is the order of whole numbers: every number has a rank, its magnitude bits counted
down from zero if it is negative.
-/

namespace DriftField.Scalar

open Float.Model Float.Model.UnpackedFloat

/-- The parts of a finite number. Only a number of the least exponent has fewer than 53 significant bits. -/
structure Canonical (m : Nat) (e : Int) : Prop where
  short : m < 2 ^ 53
  least : -1074 ≤ e
  greatest : e < 972
  long : e = -1074 ∨ 2 ^ 52 ≤ m

def IsNumber : UnpackedFloat → Prop
  | .notANumber => False
  | .infinity _ | .zero _ => True
  | .finite _ m e _ => Canonical m e

def infinityRank : Int := 2047 * 2 ^ 52

def place : UnpackedFloat → Int
  | .notANumber | .zero _ => 0
  | .infinity s => s.apply infinityRank
  | .finite s m e _ => s.apply ((e + 1074) * 2 ^ 52 + m)

def rank (v : Float) : Int := place v.toModel.unpack

namespace Canonical

variable {m n : Nat} {j k : Int}

theorem place_pos (canonical : Canonical m k) (positive : 0 < m) :
    0 < (k + 1074) * 2 ^ 52 + (m : Int) := by
  have := canonical.least
  omega

theorem place_lt (canonical : Canonical m k) :
    (k + 1074) * 2 ^ 52 + (m : Int) < infinityRank := by
  have := canonical.short
  have := canonical.greatest
  unfold infinityRank
  omega

theorem compare_parts (left : Canonical m j) (right : Canonical n k) :
    (compare j k).then (compare m n) =
      compare ((j + 1074) * 2 ^ 52 + (m : Int)) ((k + 1074) * 2 ^ 52 + n) := by
  obtain ⟨short, least, -, long⟩ := left
  obtain ⟨short', least', -, long'⟩ := right
  rcases lt_trichotomy j k with less | rfl | greater
  · have whole : (j + 1074) * 2 ^ 52 + (m : Int) < (k + 1074) * 2 ^ 52 + n := by omega
    rw [compare_lt_iff_lt.mpr less, compare_lt_iff_lt.mpr whole]
    rfl
  · have same : compare j j = .eq := compare_eq_iff_eq.mpr rfl
    rw [same]
    rcases lt_trichotomy m n with less | rfl | greater
    · have whole : (j + 1074) * 2 ^ 52 + (m : Int) < (j + 1074) * 2 ^ 52 + n := by omega
      rw [compare_lt_iff_lt.mpr less, compare_lt_iff_lt.mpr whole]
      rfl
    · rw [compare_eq_iff_eq.mpr rfl, compare_eq_iff_eq.mpr rfl]
      rfl
    · have whole : (j + 1074) * 2 ^ 52 + (n : Int) < (j + 1074) * 2 ^ 52 + m := by omega
      rw [compare_gt_iff_gt.mpr greater, compare_gt_iff_gt.mpr whole]
      rfl
  · have whole : (k + 1074) * 2 ^ 52 + (n : Int) < (j + 1074) * 2 ^ 52 + m := by omega
    rw [compare_gt_iff_gt.mpr greater, compare_gt_iff_gt.mpr whole]
    rfl

end Canonical

theorem swap_compare (a b : Int) : (compare a b).swap = compare (-a) (-b) := by
  rcases lt_trichotomy a b with less | rfl | greater
  · rw [compare_lt_iff_lt.mpr less, compare_gt_iff_gt.mpr (neg_lt_neg less)]
    rfl
  · rw [compare_eq_iff_eq.mpr rfl, compare_eq_iff_eq.mpr rfl]
    rfl
  · rw [compare_gt_iff_gt.mpr greater, compare_lt_iff_lt.mpr (neg_lt_neg greater)]
    rfl

theorem abs_place_lt {u : UnpackedFloat} (number : IsNumber u) (finite : ∀ s, u ≠ .infinity s) :
    |place u| < infinityRank := by
  cases u with
  | notANumber => cases number
  | infinity s => exact absurd rfl (finite s)
  | zero s =>
      change |(0 : Int)| < infinityRank
      decide
  | finite s m e positive =>
      have below := Canonical.place_lt number
      have above := Canonical.place_pos number positive
      cases s with
      | negative =>
          have negated : place (.finite .negative m e positive) = -((e + 1074) * 2 ^ 52 + m) := rfl
          rwa [negated, abs_neg, abs_of_pos above]
      | positive =>
          have same : place (.finite .positive m e positive) = (e + 1074) * 2 ^ 52 + m := rfl
          rwa [same, abs_of_pos above]

theorem compare_place {a b : UnpackedFloat} (left : IsNumber a) (right : IsNumber b) :
    a.compare b = some (compare (place a) (place b)) := by
  fun_cases UnpackedFloat.compare a b with
  | case1 => cases left
  | case2 => cases right
  | case3 s t => cases s <;> cases t <;> rfl
  | case4 _ _ finite =>
      have bound := abs_lt.mp (abs_place_lt right finite)
      exact congrArg some (compare_gt_iff_gt.mpr bound.2).symm
  | case5 _ _ finite =>
      have bound := abs_lt.mp (abs_place_lt right finite)
      exact congrArg some (compare_lt_iff_lt.mpr bound.1).symm
  | case6 _ _ finite =>
      have bound := abs_lt.mp (abs_place_lt left finite)
      exact congrArg some (compare_lt_iff_lt.mpr bound.2).symm
  | case7 _ _ finite =>
      have bound := abs_lt.mp (abs_place_lt left finite)
      exact congrArg some (compare_gt_iff_gt.mpr bound.1).symm
  | case8 m e positive s =>
      exact congrArg some (compare_gt_iff_gt.mpr (Canonical.place_pos left positive)).symm
  | case9 m e positive s =>
      have below := neg_lt_zero.mpr (Canonical.place_pos left positive)
      exact congrArg some (compare_lt_iff_lt.mpr below).symm
  | case10 s m e positive =>
      exact congrArg some (compare_lt_iff_lt.mpr (Canonical.place_pos right positive)).symm
  | case11 s m e positive =>
      have below := neg_lt_zero.mpr (Canonical.place_pos right positive)
      exact congrArg some (compare_gt_iff_gt.mpr below).symm
  | case12 => rfl
  | case13 m j positive n k positive' =>
      rw [Canonical.compare_parts left right, swap_compare]
      rfl
  | case14 m j positive n k positive' =>
      have below := neg_lt_zero.mpr (Canonical.place_pos left positive)
      have above := Canonical.place_pos right positive'
      exact congrArg some (compare_lt_iff_lt.mpr (below.trans above)).symm
  | case15 m j positive n k positive' =>
      have above := Canonical.place_pos left positive
      have below := neg_lt_zero.mpr (Canonical.place_pos right positive')
      exact congrArg some (compare_gt_iff_gt.mpr (below.trans above)).symm
  | case16 m j positive n k positive' =>
      rw [Canonical.compare_parts left right]
      rfl

theorem isNumber_decoded (s : Sign) (e : BitVec 11) (m : BitVec 52)
    (number : (decoded s e m).isNaN = false) : IsNumber (decoded s e m) := by
  have top : e = -1#11 ↔ e.toNat = 2047 := BitVec.toNat_inj.symm
  have bottom : e = 0#11 ↔ e.toNat = 0 := BitVec.toNat_inj.symm
  have bound := e.isLt
  have bound' := m.isLt
  unfold decoded at number ⊢
  split_ifs with infinite empty unscaled empty
  · exact trivial
  · rw [if_pos infinite, if_neg empty] at number
    cases number
  · exact trivial
  · exact ⟨by omega, le_rfl, by decide, .inl rfl⟩
  · rw [top] at infinite
    rw [bottom] at unscaled
    exact ⟨by omega, by omega, by omega, .inr (by omega)⟩

theorem isNumber {v : Float} (number : v.isNaN = false) : IsNumber v.toModel.unpack := by
  obtain ⟨s, e, m, decoding⟩ := exists_decoding v
  change v.toModel.unpack.isNaN = false at number
  rw [decoding.value] at number ⊢
  exact isNumber_decoded s e m number

theorem exists_decoded {u : UnpackedFloat} (number : IsNumber u) :
    ∃ s e m, u = decoded s e m ∧ (e = -1#11 → m = 0#52) := by
  cases u with
  | notANumber => cases number
  | infinity s => exact ⟨s, -1#11, 0#52, rfl, fun _ => rfl⟩
  | zero s => exact ⟨s, 0#11, 0#52, rfl, fun _ => rfl⟩
  | finite s m e positive =>
      obtain ⟨short, least, greatest, long⟩ := number
      rcases Nat.lt_or_ge m (2 ^ 52) with low | high
      · have same : (BitVec.ofNat 52 m).toNat = m := by
          rw [BitVec.toNat_ofNat]
          omega
        have nonzero : BitVec.ofNat 52 m ≠ 0#52 := by
          rw [ne_eq, ← BitVec.toNat_inj, same]
          exact positive.ne'
        refine ⟨s, 0#11, BitVec.ofNat 52 m, ?_, fun top => absurd top (by decide)⟩
        have least : e = -1074 := by omega
        unfold decoded
        rw [if_neg (by decide), if_pos rfl, dif_neg nonzero]
        simp only [same, least]
      · have exponent : (BitVec.ofNat 11 (e + 1075).toNat).toNat = (e + 1075).toNat := by
          rw [BitVec.toNat_ofNat]
          omega
        have fraction : (BitVec.ofNat 52 (m - 2 ^ 52)).toNat = m - 2 ^ 52 := by
          rw [BitVec.toNat_ofNat]
          omega
        have top : BitVec.ofNat 11 (e + 1075).toNat ≠ -1#11 := by
          rw [ne_eq, ← BitVec.toNat_inj, exponent]
          change ¬ _ = 2047
          omega
        have bottom : BitVec.ofNat 11 (e + 1075).toNat ≠ 0#11 := by
          rw [ne_eq, ← BitVec.toNat_inj, exponent]
          change ¬ _ = 0
          omega
        refine ⟨s, BitVec.ofNat 11 (e + 1075).toNat, BitVec.ofNat 52 (m - 2 ^ 52), ?_,
          fun infinite => absurd infinite top⟩
        have scaled : ((e + 1075).toNat : Int) - 1075 = e := by omega
        have whole : 2 ^ 52 + (m - 2 ^ 52) = m := by omega
        unfold decoded
        rw [if_neg top, if_neg bottom]
        simp only [exponent, fraction, scaled, whole]

theorem unpack_pack {u : UnpackedFloat} (number : IsNumber u) :
    UnpackedFloat.unpack Format.binary64 (UnpackedFloat.pack Format.binary64 u) = u := by
  obtain ⟨s, e, m, rfl, canonical⟩ := exists_decoded number
  rw [pack_decoded s e m canonical, unpack_assembled]

theorem not_isNaN_of_compare {u w : UnpackedFloat} {o : Ordering} (compared : u.compare w = some o) :
    u.isNaN = false ∧ w.isNaN = false := by
  cases u with
  | notANumber => cases compared
  | _ =>
      cases w with
      | notANumber => cases compared
      | _ => exact ⟨rfl, rfl⟩

theorem not_isNaN_of_le {v w : Float} (h : v ≤ w) : v.isNaN = false ∧ w.isNaN = false := by
  have order : (v.toModel.unpack.compare w.toModel.unpack).any Ordering.isLE = true := of_decide_eq_true h
  cases compared : v.toModel.unpack.compare w.toModel.unpack with
  | none => rw [compared] at order; cases order
  | some o => exact not_isNaN_of_compare compared

theorem not_isNaN_of_lt {v w : Float} (h : v < w) : v.isNaN = false ∧ w.isNaN = false :=
  not_isNaN_of_compare (eq_of_beq (of_decide_eq_true h))

theorem le_iff_rank {v w : Float} (left : v.isNaN = false) (right : w.isNaN = false) :
    v ≤ w ↔ rank v ≤ rank w := by
  have order : v ≤ w ↔ (v.toModel.unpack.compare w.toModel.unpack).any Ordering.isLE = true :=
    decide_eq_true_iff
  rw [order, compare_place (isNumber left) (isNumber right)]
  exact Int.isLE_compare

theorem lt_iff_rank {v w : Float} (left : v.isNaN = false) (right : w.isNaN = false) :
    v < w ↔ rank v < rank w := by
  have order : v < w ↔ (v.toModel.unpack.compare w.toModel.unpack == some .lt) = true :=
    decide_eq_true_iff
  rw [order, compare_place (isNumber left) (isNumber right), beq_iff_eq, Option.some.injEq]
  exact compare_lt_iff_lt

theorem le_refl {v : Float} (number : v.isNaN = false) : v ≤ v := (le_iff_rank number number).mpr le_rfl

theorem le_of_lt {v w : Float} (h : v < w) : v ≤ w := by
  obtain ⟨left, right⟩ := not_isNaN_of_lt h
  rw [lt_iff_rank left right] at h
  exact (le_iff_rank left right).mpr h.le

theorem le_trans {u v w : Float} (first : u ≤ v) (second : v ≤ w) : u ≤ w := by
  obtain ⟨left, middle⟩ := not_isNaN_of_le first
  have right := (not_isNaN_of_le second).2
  rw [le_iff_rank left middle] at first
  rw [le_iff_rank middle right] at second
  exact (le_iff_rank left right).mpr (first.trans second)

theorem lt_of_lt_of_le {u v w : Float} (first : u < v) (second : v ≤ w) : u < w := by
  obtain ⟨left, middle⟩ := not_isNaN_of_lt first
  have right := (not_isNaN_of_le second).2
  rw [lt_iff_rank left middle] at first
  rw [le_iff_rank middle right] at second
  exact (lt_iff_rank left right).mpr (first.trans_le second)

theorem lt_or_le {v w : Float} (left : v.isNaN = false) (right : w.isNaN = false) : v < w ∨ w ≤ v := by
  rw [lt_iff_rank left right, le_iff_rank right left]
  exact lt_or_ge _ _

theorem not_lt_of_le {v w : Float} (h : v ≤ w) : ¬ w < v := by
  obtain ⟨left, right⟩ := not_isNaN_of_le h
  rw [lt_iff_rank right left]
  exact not_lt_of_ge ((le_iff_rank left right).mp h)

/-! Numbers put between two bounds. -/

variable {low high v : Float}

theorem le_greater (number : low.isNaN = false) (v : Float) : low ≤ greater v low := by
  unfold greater
  cases other : v.isNaN with
  | true =>
      rw [if_pos rfl]
      exact le_refl number
  | false =>
      rw [number, if_neg Bool.false_ne_true, if_neg Bool.false_ne_true]
      split
      · exact le_refl number
      · next atLeast => exact (lt_or_le other number).resolve_left atLeast

theorem lesser_le (number : high.isNaN = false) (v : Float) : lesser v high ≤ high := by
  unfold lesser
  cases other : v.isNaN with
  | true =>
      rw [if_pos rfl]
      exact le_refl number
  | false =>
      rw [number, if_neg Bool.false_ne_true, if_neg Bool.false_ne_true]
      split
      · exact le_refl number
      · next atMost => exact (lt_or_le number other).resolve_left atMost

theorem within_mem (order : low ≤ high) (v : Float) : low ≤ within low high v ∧ within low high v ≤ high := by
  obtain ⟨left, right⟩ := not_isNaN_of_le order
  have above := le_greater left v
  have number := (not_isNaN_of_le above).2
  refine ⟨?_, lesser_le right _⟩
  unfold within lesser
  rw [number, right, if_neg Bool.false_ne_true, if_neg Bool.false_ne_true]
  split
  · exact order
  · exact above

theorem within_eq_self (above : low ≤ v) (below : v ≤ high) : within low high v = v := by
  obtain ⟨left, number⟩ := not_isNaN_of_le above
  have right := (not_isNaN_of_le below).2
  have kept : greater v low = v := by
    unfold greater
    rw [number, left, if_neg Bool.false_ne_true, if_neg Bool.false_ne_true, if_neg (not_lt_of_le above)]
  unfold within lesser
  rw [kept, number, right, if_neg Bool.false_ne_true, if_neg Bool.false_ne_true, if_neg (not_lt_of_le below)]

theorem rank_lt_of_isFinite (finite : isFinite v = true) : |rank v| < infinityRank := by
  refine abs_place_lt (isNumber (not_isNaN_of_isFinite finite)) fun s infinite => ?_
  change v.toModel.unpack.isFinite = true at finite
  rw [infinite] at finite
  cases finite

theorem isFinite_of_rank_lt (number : v.isNaN = false) (bound : |rank v| < infinityRank) : isFinite v = true := by
  unfold rank at bound
  change v.toModel.unpack.isFinite = true
  change v.toModel.unpack.isNaN = false at number
  cases value : v.toModel.unpack with
  | notANumber =>
      rw [value] at number
      cases number
  | infinity s =>
      rw [value] at bound
      cases s <;> exact absurd bound (by decide)
  | zero s => rfl
  | finite s m e positive => rfl

theorem isFinite_of_mem (first : isFinite low = true) (last : isFinite high = true) (above : low ≤ v)
    (below : v ≤ high) : isFinite v = true := by
  obtain ⟨left, number⟩ := not_isNaN_of_le above
  rw [le_iff_rank left number] at above
  rw [le_iff_rank number (not_isNaN_of_le below).2] at below
  have least := abs_lt.mp (rank_lt_of_isFinite first)
  have greatest := abs_lt.mp (rank_lt_of_isFinite last)
  exact isFinite_of_rank_lt number (abs_lt.mpr ⟨by omega, by omega⟩)

end DriftField.Scalar
