import Mathlib
import DriftField.Proofs.Scalar.Nearest
/-!
Sums and differences of binary64 numbers keep the order. A number weighs so many of the least units; the exact sum of
two weights, rounded, is the rank of the sum.
-/

namespace DriftField.Scalar

open Float.Model Float.Model.UnpackedFloat

@[irreducible] def overflowExponent : Nat := 2100

theorem overflowExponent_eq : overflowExponent = 2100 := by
  unfold overflowExponent
  rfl

/-- More units of `2 ^ -1074` than any finite number has. -/
def overflow : Int := (2 ^ overflowExponent : Nat)

/-- An infinite number weighs so much that no finite number brings it back below the overflow. -/
def weight : UnpackedFloat → Int
  | .notANumber | .zero _ => 0
  | .infinity s => s.apply (2 * overflow)
  | .finite s m e _ => s.apply (m * 2 ^ (e + 1074).toNat)

/-- The rank of the number nearest to a weight. -/
def rounded : Int → Int
  | .ofNat n => nearestRank 0 n
  | .negSucc n => -nearestRank 0 (n + 1)

theorem nearestRank_zero : nearestRank 0 0 = 0 := by
  have zero : nearestRank 0 (0 * 2 ^ 0) = _ := nearestRank_exact (by decide) (.inl rfl)
  rw [Nat.zero_mul] at zero
  rw [zero]
  decide

theorem rounded_apply (s : Sign) (n : Nat) : rounded (s.apply n) = s.apply (nearestRank 0 n) := by
  cases s with
  | positive => rfl
  | negative =>
      cases n with
      | zero =>
          have zero := nearestRank_zero
          change nearestRank 0 0 = -nearestRank 0 0
          omega
      | succ n => rfl

theorem rounded_neg (n : Int) : rounded (-n) = -rounded n := by
  obtain ⟨k, rfl | rfl⟩ := n.eq_nat_or_neg
  · exact rounded_apply .negative k
  · have negated : rounded (-k) = -nearestRank 0 k := rounded_apply .negative k
    rw [neg_neg, negated, neg_neg]
    rfl

theorem rounded_mono {m n : Int} (h : m ≤ n) : rounded m ≤ rounded n := by
  cases m with
  | ofNat m =>
      cases n with
      | ofNat n => exact nearestRank_mono 0 (Int.ofNat_le.mp h)
      | negSucc n => exact absurd ((Int.negSucc_lt_zero n).trans_le (Int.natCast_nonneg m)) h.not_gt
  | negSucc m =>
      have below := nearestRank_nonneg 0 (m + 1)
      cases n with
      | ofNat n =>
          have above := nearestRank_nonneg 0 n
          change -nearestRank 0 (m + 1) ≤ nearestRank 0 n
          omega
      | negSucc n =>
          have order : nearestRank 0 (n + 1) ≤ nearestRank 0 (m + 1) :=
            nearestRank_mono 0 (by omega)
          exact neg_le_neg order

theorem overflow_pos : 0 < overflow := Int.natCast_pos.mpr (Nat.two_pow_pos _)

theorem rounded_of_overflow {n : Int} (h : overflow ≤ n) : rounded n = infinityRank := by
  obtain ⟨places, exponent⟩ : ∃ places, overflowExponent = 52 + places := ⟨2048, overflowExponent_eq⟩
  have scale : overflow = ((2 ^ 52 * 2 ^ places : Nat) : Int) := by
    unfold overflow
    rw [exponent, pow_add]
  have least : nearestRank 0 (2 ^ 52 * 2 ^ places) = infinityRank := by
    rw [nearestRank_exact (by decide) (.inr le_rfl)]
    apply min_eq_right
    rw [overflowExponent_eq] at exponent
    unfold infinityRank
    omega
  obtain ⟨k, rfl⟩ := Int.eq_ofNat_of_zero_le (overflow_pos.le.trans h)
  apply (nearestRank_le 0 k).antisymm
  rw [← least]
  rw [scale] at h
  exact nearestRank_mono 0 (Int.ofNat_le.mp h)

theorem rounded_infinite (s : Sign) {n : Int} (h : overflow ≤ s.apply n) :
    rounded n = s.apply infinityRank := by
  cases s with
  | positive => exact rounded_of_overflow h
  | negative =>
      have negated : rounded (-n) = infinityRank := rounded_of_overflow h
      rw [← neg_neg n, rounded_neg, negated]
      rfl

theorem abs_weight_lt {u : UnpackedFloat} (number : IsNumber u) (finite : ∀ s, u ≠ .infinity s) :
    |weight u| < overflow := by
  cases u with
  | notANumber => cases number
  | infinity s => exact absurd rfl (finite s)
  | zero s => exact overflow_pos
  | finite s m e positive =>
      obtain ⟨short, least, greatest, -⟩ := number
      have nonnegative : 0 ≤ (m : Int) * 2 ^ (e + 1074).toNat := by positivity
      have magnitude : |weight (.finite s m e positive)| = (m : Int) * 2 ^ (e + 1074).toNat := by
        cases s with
        | positive => exact abs_of_nonneg nonnegative
        | negative => exact (abs_neg _).trans (abs_of_nonneg nonnegative)
      have bound : m * 2 ^ (e + 1074).toNat < 2 ^ overflowExponent := by
        calc
          m * 2 ^ (e + 1074).toNat < 2 ^ 53 * 2 ^ (e + 1074).toNat :=
            Nat.mul_lt_mul_of_pos_right short (by positivity)
          _ = 2 ^ (53 + (e + 1074).toNat) := (pow_add _ _ _).symm
          _ ≤ 2 ^ overflowExponent := Nat.pow_le_pow_right (by decide) (by rw [overflowExponent_eq]; omega)
      rw [magnitude]
      unfold overflow
      have cast := Int.ofNat_lt.mpr bound
      rwa [Nat.cast_mul, Nat.cast_pow] at cast

theorem place_eq_rounded {u : UnpackedFloat} (number : IsNumber u) : place u = rounded (weight u) := by
  cases u with
  | notANumber => cases number
  | zero s => exact nearestRank_zero.symm
  | infinity s =>
      have above := overflow_pos
      refine (rounded_infinite s ?_).symm
      cases s with
      | positive =>
          change overflow ≤ 2 * overflow
          omega
      | negative =>
          change overflow ≤ - -(2 * overflow)
          omega
  | finite s m e positive =>
      obtain ⟨k, scale⟩ : ∃ k : Nat, e + 1074 = k := Int.eq_ofNat_of_zero_le (by have := number.least; omega)
      have exponent : (e + 1074).toNat = k := by omega
      have below := Canonical.place_lt number
      have exact : nearestRank 0 (m * 2 ^ k) = k * 2 ^ 52 + m := by
        rw [nearestRank_exact number.short (number.long.imp (by omega) id), ← scale, min_eq_left below.le]
      have applied := rounded_apply s (m * 2 ^ k)
      rw [exact, ← scale] at applied
      push_cast at applied
      rw [← exponent] at applied
      exact applied.symm

theorem weight_eq_of_place_eq {u v : UnpackedFloat} (left : IsNumber u) (right : IsNumber v)
    (same : place u = place v) : weight u = weight v := by
  have forward : u.compare v = some .eq := by
    rw [compare_place left right, same, compare_eq_iff_eq.mpr rfl]
  have backward : v.compare u = some .eq := by
    rw [compare_place right left, same, compare_eq_iff_eq.mpr rfl]
  rcases eq_or_zero_of_compare_eq forward with rfl | ⟨s, rfl⟩
  · rfl
  · rcases eq_or_zero_of_compare_eq backward with same | ⟨t, rfl⟩
    · rw [same]
    · rfl

theorem place_le_iff {u v : UnpackedFloat} (left : IsNumber u) (right : IsNumber v) :
    place u ≤ place v ↔ weight u ≤ weight v := by
  constructor
  · intro order
    by_contra less
    have reverse : place v ≤ place u := by
      rw [place_eq_rounded left, place_eq_rounded right]
      exact rounded_mono (le_of_not_ge less)
    exact less (weight_eq_of_place_eq left right (order.antisymm reverse)).le
  · intro order
    rw [place_eq_rounded left, place_eq_rounded right]
    exact rounded_mono order

/-! Exact sums, rounded. -/

theorem apply_mul (s : Sign) (m n : Int) : s.apply m * n = s.apply (m * n) := by
  cases s with
  | positive => rfl
  | negative => exact neg_mul m n

theorem packed_normalize {e : Int} (n : Int) (least : -1074 ≤ e) :
    Packed (UnpackedFloat.normalize Format.binary64 n e .positive)
      (rounded (n * 2 ^ (e + 1074).toNat)) := by
  have nonzero (s : Sign) {m : Nat} (positive : 0 < m) :
      Packed (UnpackedFloat.round Format.binary64 s m e) (rounded (s.apply m * 2 ^ (e + 1074).toNat)) := by
    have round := packed_round 0 s positive (by omega : -(1074 + (0 : Nat)) ≤ e)
    have whole := rounded_apply s (m * 2 ^ (e + 1074).toNat)
    push_cast at whole
    rw [apply_mul, whole]
    rwa [Nat.cast_zero, add_zero] at round
  unfold UnpackedFloat.normalize
  rcases lt_trichotomy n 0 with negative | rfl | positive
  · rw [compare_lt_iff_lt.mpr negative]
    have whole : Sign.negative.apply ((-n).toNat : Int) = n := by
      change -((-n).toNat : Int) = n
      omega
    have packed := nonzero .negative (m := (-n).toNat) (by omega)
    rwa [whole] at packed
  · rw [compare_eq_iff_eq.mpr rfl, zero_mul]
    have packed : Packed (.zero .positive) 0 := .of_isNumber trivial
    rwa [← nearestRank_zero] at packed
  · rw [compare_gt_iff_gt.mpr positive]
    have whole : Sign.positive.apply (n.toNat : Int) = n := Int.toNat_of_nonneg positive.le
    have packed := nonzero .positive (m := n.toNat) (by omega)
    rwa [whole] at packed

theorem apply_decreaseExponent (s : Sign) (m : Nat) {e d : Int} (least : -1074 ≤ d) (above : d ≤ e) :
    s.apply (decreaseExponent m e d).1 * 2 ^ (d + 1074).toNat = s.apply (m * 2 ^ (e + 1074).toNat) := by
  have places : (e - d).toNat + (d + 1074).toNat = (e + 1074).toNat := by omega
  unfold decreaseExponent
  simp only
  rw [apply_mul, Nat.shiftLeft_eq, Nat.cast_mul, mul_assoc, ← places, pow_add, Nat.cast_pow, Nat.cast_ofNat]

def Opposite (u v : UnpackedFloat) : Prop := ∃ s, u = .infinity s ∧ v = .infinity (-s)

theorem overflow_le_apply {s : Sign} {n : Int} (h : |n| < overflow ∨ n = weight (.infinity s)) :
    overflow ≤ s.apply (weight (.infinity s) + n) := by
  have above := overflow_pos
  have bounds : n = weight (.infinity s) ∨ -overflow < n ∧ n < overflow := h.symm.imp id abs_lt.mp
  cases s with
  | positive =>
      change n = 2 * overflow ∨ _ at bounds
      change overflow ≤ 2 * overflow + n
      omega
  | negative =>
      change n = -(2 * overflow) ∨ _ at bounds
      change overflow ≤ -(-(2 * overflow) + n)
      omega

theorem packed_add {u v : UnpackedFloat} (left : IsNumber u) (right : IsNumber v) (summable : ¬ Opposite u v) :
    Packed (UnpackedFloat.add Format.binary64 u v) (rounded (weight u + weight v)) := by
  have infinite (s : Sign) {n : Int} (h : |n| < overflow ∨ n = weight (.infinity s)) :
      Packed (.infinity s) (rounded (weight (.infinity s) + n)) := by
    rw [rounded_infinite s (overflow_le_apply h)]
    exact .of_isNumber (u := .infinity s) trivial
  have zero (s : Sign) : Packed (.zero s) (rounded 0) := by
    have packed : Packed (.zero s) 0 := .of_isNumber trivial
    rwa [← nearestRank_zero] at packed
  fun_cases UnpackedFloat.add Format.binary64 u v with
  | case1 => cases left
  | case2 => cases right
  | case3 s t same => exact infinite s (.inr (by rw [eq_of_beq same]))
  | case4 s t different =>
      refine absurd ⟨s, rfl, ?_⟩ summable
      cases s <;> cases t <;> first | rfl | exact absurd rfl different
  | case5 s _ _ finite => exact infinite s (.inl (abs_weight_lt right finite))
  | case6 _ s _ finite =>
      rw [add_comm]
      exact infinite s (.inl (abs_weight_lt left finite))
  | case7 s => exact zero s
  | case8 => exact zero .positive
  | case9 =>
      change Packed v (rounded (0 + weight v))
      rw [zero_add, ← place_eq_rounded right]
      exact .of_isNumber right
  | case10 =>
      change Packed u (rounded (weight u + 0))
      rw [add_zero, ← place_eq_rounded left]
      exact .of_isNumber left
  | case11 s m e positive t j d positive' _ _ _ first _ _ second =>
      have least := le_min left.least right.least
      have packed := packed_normalize (s.apply (decreaseExponent m e (min e d)).1 +
        t.apply (decreaseExponent j d (min e d)).1) least
      rw [add_mul, apply_decreaseExponent s m least (min_le_left e d),
        apply_decreaseExponent t j least (min_le_right e d), first, second] at packed
      exact packed

/-! Sums and differences of numbers. -/

variable {a b c d : Float}

theorem le_iff_weight (left : a.isNaN = false) (right : b.isNaN = false) :
    a ≤ b ↔ weight a.toModel.unpack ≤ weight b.toModel.unpack :=
  (le_iff_rank left right).trans (place_le_iff (isNumber left) (isNumber right))

theorem lt_iff_weight (left : a.isNaN = false) (right : b.isNaN = false) :
    a < b ↔ weight a.toModel.unpack < weight b.toModel.unpack := by
  rw [lt_iff_rank left right, ← not_le, ← not_le]
  exact not_congr (place_le_iff (isNumber right) (isNumber left))

/-- What it takes for a sum to be a number. -/
structure Summands (a b : Float) : Prop where
  left : a.isNaN = false
  right : b.isNaN = false
  summable : ¬ Opposite a.toModel.unpack b.toModel.unpack

theorem Summands.packed (summands : Summands a b) :
    Packed (UnpackedFloat.add Format.binary64 a.toModel.unpack b.toModel.unpack)
      (rounded (weight a.toModel.unpack + weight b.toModel.unpack)) :=
  packed_add (isNumber summands.left) (isNumber summands.right) summands.summable

theorem Summands.rank_add (summands : Summands a b) :
    rank (a + b) = rounded (weight a.toModel.unpack + weight b.toModel.unpack) :=
  summands.packed.place_eq

theorem IsNumber.isNaN {u : UnpackedFloat} (number : IsNumber u) : u.isNaN = false := by
  cases u with
  | notANumber => cases number
  | _ => rfl

theorem isNaN_add : (a + b).isNaN = false ↔ Summands a b := by
  constructor
  · intro number
    change (UnpackedFloat.unpack Format.binary64 (UnpackedFloat.pack Format.binary64
      (UnpackedFloat.add Format.binary64 a.toModel.unpack b.toModel.unpack))).isNaN = false at number
    have sum : UnpackedFloat.add Format.binary64 a.toModel.unpack b.toModel.unpack ≠ .notANumber := by
      intro none
      rw [none] at number
      cases number
    refine ⟨?_, ?_, ?_⟩
    · change a.toModel.unpack.isNaN = false
      cases left : a.toModel.unpack with
      | notANumber => rw [left] at sum; exact absurd rfl sum
      | _ => rfl
    · change b.toModel.unpack.isNaN = false
      cases right : b.toModel.unpack with
      | notANumber =>
          rw [right] at sum
          cases left : a.toModel.unpack <;> rw [left] at sum <;> exact absurd rfl sum
      | _ => rfl
    · rintro ⟨s, left, right⟩
      rw [left, right] at sum
      cases s <;> exact absurd rfl sum
  · intro summands
    exact summands.packed.number.isNaN

theorem isNaN_add_of_isFinite (number : a.isNaN = false) (finite : isFinite b = true) :
    (a + b).isNaN = false := by
  refine isNaN_add.mpr ⟨number, not_isNaN_of_isFinite finite, ?_⟩
  rintro ⟨s, left, right⟩
  change b.toModel.unpack.isFinite = true at finite
  rw [right] at finite
  cases finite

theorem isNaN_add_of_isFinite_left (finite : isFinite a = true) (number : b.isNaN = false) :
    (a + b).isNaN = false := by
  refine isNaN_add.mpr ⟨not_isNaN_of_isFinite finite, number, ?_⟩
  rintro ⟨s, left, right⟩
  change a.toModel.unpack.isFinite = true at finite
  rw [left] at finite
  cases finite

theorem add_exact (left : isFinite a = true) (right : isFinite b = true) (sum : isFinite c = true)
    (exact : weight c.toModel.unpack = weight a.toModel.unpack + weight b.toModel.unpack) :
    isFinite (a + b) = true ∧ weight (a + b).toModel.unpack = weight c.toModel.unpack := by
  have number := isNaN_add_of_isFinite (not_isNaN_of_isFinite left) right
  have form := isNumber (not_isNaN_of_isFinite sum)
  have same : rank (a + b) = rank c := by
    rw [(isNaN_add.mp number).rank_add, ← exact]
    exact (place_eq_rounded form).symm
  refine ⟨isFinite_of_rank_lt number ?_, weight_eq_of_place_eq (isNumber number) form same⟩
  rw [same]
  exact rank_lt_of_isFinite sum

theorem add_le_add (first : a ≤ b) (second : c ≤ d) (left : (a + c).isNaN = false)
    (right : (b + d).isNaN = false) : a + c ≤ b + d := by
  have summands := isNaN_add.mp left
  have summands' := isNaN_add.mp right
  rw [le_iff_weight summands.left summands'.left] at first
  rw [le_iff_weight summands.right summands'.right] at second
  rw [le_iff_rank left right, summands.rank_add, summands'.rank_add]
  exact rounded_mono (Int.add_le_add first second)

theorem le_add_of_nonneg (nonnegative : 0.0 ≤ b) (number : (a + b).isNaN = false) : a ≤ a + b := by
  have summands := isNaN_add.mp number
  have above : 0 ≤ weight b.toModel.unpack := (le_iff_weight (by decide) summands.right).mp nonnegative
  rw [le_iff_rank summands.left number, summands.rank_add]
  change place a.toModel.unpack ≤ _
  rw [place_eq_rounded (isNumber summands.left)]
  exact rounded_mono (le_add_of_nonneg_right above)

theorem isNumber_neg {u : UnpackedFloat} (number : IsNumber u) : IsNumber u.neg := by
  cases u with
  | notANumber => cases number
  | infinity s => exact trivial
  | zero s => exact trivial
  | finite s m e positive => exact number

theorem weight_neg (u : UnpackedFloat) : weight u.neg = -weight u := by
  cases u with
  | notANumber => rfl
  | zero s => rfl
  | infinity s =>
      cases s with
      | positive => rfl
      | negative => exact (neg_neg _).symm
  | finite s m e positive =>
      cases s with
      | positive => rfl
      | negative => exact (neg_neg _).symm

theorem unpack_neg (number : a.isNaN = false) : (-a).toModel.unpack = a.toModel.unpack.neg :=
  unpack_pack (isNumber_neg (isNumber number))

theorem isNaN_neg (number : a.isNaN = false) : (-a).isNaN = false := by
  change (-a).toModel.unpack.isNaN = false
  rw [unpack_neg number]
  exact (isNumber_neg (isNumber number)).isNaN

theorem isNumber_abs {u : UnpackedFloat} (number : IsNumber u) : IsNumber u.abs := by
  cases u with
  | notANumber => cases number
  | zero s => trivial
  | infinity s => trivial
  | finite s m e positive => exact number

theorem unpack_abs (number : a.isNaN = false) : a.abs.toModel.unpack = a.toModel.unpack.abs :=
  unpack_pack (isNumber_abs (isNumber number))

theorem isNaN_abs (number : a.isNaN = false) : a.abs.isNaN = false := by
  change a.abs.toModel.unpack.isNaN = false
  rw [unpack_abs number]
  exact (isNumber_abs (isNumber number)).isNaN

theorem neg_le_neg_of_le (h : a ≤ b) : -b ≤ -a := by
  obtain ⟨left, right⟩ := not_isNaN_of_le h
  rw [le_iff_weight left right] at h
  rw [le_iff_weight (isNaN_neg right) (isNaN_neg left), unpack_neg left, unpack_neg right, weight_neg, weight_neg]
  exact neg_le_neg h

theorem apply_neg (s : Sign) (n : Int) : (-s).apply n = -s.apply n := by
  cases s with
  | positive => rfl
  | negative => exact (neg_neg n).symm

theorem unpacked_sub (u v : UnpackedFloat) :
    UnpackedFloat.sub Format.binary64 u v = UnpackedFloat.add Format.binary64 u v.neg := by
  cases u with
  | notANumber => rfl
  | infinity s => cases v <;> rfl
  | zero s => cases v <;> rfl
  | finite s m e positive =>
      cases v with
      | finite t j d positive' =>
          unfold UnpackedFloat.neg UnpackedFloat.sub UnpackedFloat.add
          simp only
          rw [apply_neg, Int.sub_eq_add_neg]
      | _ => rfl

theorem sub_eq_add_neg (right : b.isNaN = false) : a - b = a + -b := by
  apply ext_toBits
  change UnpackedFloat.pack Format.binary64 (UnpackedFloat.sub Format.binary64 a.toModel.unpack b.toModel.unpack) =
    UnpackedFloat.pack Format.binary64 (UnpackedFloat.add Format.binary64 a.toModel.unpack (-b).toModel.unpack)
  rw [unpacked_sub, unpack_neg right]

theorem sub_le_sub (first : a ≤ b) (second : d ≤ c) (left : (a - c).isNaN = false)
    (right : (b - d).isNaN = false) : a - c ≤ b - d := by
  obtain ⟨number, number'⟩ := not_isNaN_of_le second
  rw [sub_eq_add_neg number'] at left ⊢
  rw [sub_eq_add_neg number] at right ⊢
  exact add_le_add first (neg_le_neg_of_le second) left right

theorem summands_sub (number : (a - b).isNaN = false) (right : b.isNaN = false) : Summands a (-b) := by
  rw [sub_eq_add_neg right] at number
  exact isNaN_add.mp number

theorem rank_sub (number : (a - b).isNaN = false) (right : b.isNaN = false) :
    rank (a - b) = rounded (weight a.toModel.unpack - weight b.toModel.unpack) := by
  rw [sub_eq_add_neg right, (summands_sub number right).rank_add, unpack_neg right, weight_neg, ← Int.sub_eq_add_neg]

theorem isNaN_sub_of_isFinite (finite : isFinite a = true) (right : b.isNaN = false) : (a - b).isNaN = false := by
  rw [sub_eq_add_neg right]
  exact isNaN_add_of_isFinite_left finite (isNaN_neg right)

theorem sub_nonneg (order : b ≤ a) (number : (a - b).isNaN = false) : 0.0 ≤ a - b := by
  obtain ⟨right, left⟩ := not_isNaN_of_le order
  rw [le_iff_weight right left] at order
  rw [le_iff_rank (by decide) number, rank_sub number right]
  change 0 ≤ _
  rw [← nearestRank_zero]
  exact rounded_mono (Int.sub_nonneg_of_le order)

theorem sub_le_self (nonnegative : 0.0 ≤ b) (number : (a - b).isNaN = false) : a - b ≤ a := by
  have right := (not_isNaN_of_le nonnegative).2
  have summands := summands_sub number right
  have below : 0 ≤ weight b.toModel.unpack := (le_iff_weight (by decide) right).mp nonnegative
  rw [le_iff_rank number summands.left, rank_sub number right]
  change _ ≤ place a.toModel.unpack
  rw [place_eq_rounded (isNumber summands.left)]
  exact rounded_mono (Int.sub_le_self _ below)

theorem eq_infinity_of_le {u : UnpackedFloat} (number : IsNumber u) (above : infinityRank ≤ place u) :
    u = .infinity .positive := by
  cases u with
  | infinity s =>
      cases s with
      | positive => rfl
      | negative => exact absurd above (by decide)
  | _ =>
      have bound := (abs_lt.mp (abs_place_lt number nofun)).2
      exact absurd above (not_le_of_gt bound)

/-- An infinity stays what it is when a number is taken from it, unless that is the same infinity. -/
theorem unpack_sub_infinity {s : Sign} (value : a.toModel.unpack = .infinity s) (right : b.isNaN = false)
    (apart : b.toModel.unpack ≠ .infinity s) : (a - b).toModel.unpack = .infinity s := by
  have form := isNumber right
  have kept : UnpackedFloat.sub Format.binary64 a.toModel.unpack b.toModel.unpack = .infinity s := by
    rw [value]
    cases other : b.toModel.unpack with
    | notANumber =>
        rw [other] at form
        cases form
    | infinity t =>
        rw [other] at apart
        cases s <;> cases t <;> first | rfl | exact absurd rfl apart
    | _ => rfl
  change UnpackedFloat.unpack Format.binary64 (UnpackedFloat.pack Format.binary64
    (UnpackedFloat.sub Format.binary64 a.toModel.unpack b.toModel.unpack)) = _
  rw [kept]
  exact unpack_pack (u := .infinity s) trivial

theorem isNaN_sub_same_infinity {s : Sign} (value : a.toModel.unpack = .infinity s)
    (value' : b.toModel.unpack = .infinity s) : (a - b).isNaN = true := by
  have right : b.isNaN = false := by
    change b.toModel.unpack.isNaN = false
    rw [value']
    rfl
  by_contra number
  refine (summands_sub (Bool.eq_false_iff.mpr number) right).summable ⟨s, value, ?_⟩
  rw [unpack_neg right, value']
  rfl

theorem neg_infinityRank_le (number : a.isNaN = false) : -infinityRank ≤ rank a := by
  unfold rank
  cases value : a.toModel.unpack with
  | infinity s => cases s <;> decide
  | _ =>
      have form := isNumber number
      rw [value] at form
      exact (abs_lt.mp (abs_place_lt form nofun)).1.le

theorem isFinite_or_infinity (number : a.isNaN = false) :
    isFinite a = true ∨ ∃ s, a.toModel.unpack = .infinity s := by
  change a.toModel.unpack.isNaN = false at number
  change a.toModel.unpack.isFinite = true ∨ _
  cases value : a.toModel.unpack with
  | notANumber =>
      rw [value] at number
      cases number
  | infinity s => exact .inr ⟨s, rfl⟩
  | zero s => exact .inl rfl
  | finite s m e positive => exact .inl rfl

/-- Taking less away leaves more. What is left is no number only where an infinity is taken from itself, and then taking
more away leaves no number either, or the least infinity. -/
theorem lt_sub_of_le (order : b ≤ c) (less : d < a - c) : d < a - b := by
  obtain ⟨middle, right⟩ := not_isNaN_of_le order
  obtain ⟨least, number⟩ := not_isNaN_of_lt less
  have left := (summands_sub number right).left
  suffices difference : (a - b).isNaN = false from
    lt_of_lt_of_le less (sub_le_sub (le_refl left) order number difference)
  rcases isFinite_or_infinity left with finite | ⟨s, value⟩
  · exact isNaN_sub_of_isFinite finite middle
  · have apart : c.toModel.unpack ≠ .infinity s := by
      intro same
      rw [isNaN_sub_same_infinity value same] at number
      cases number
    cases s with
    | positive =>
        have below : b.toModel.unpack ≠ .infinity .positive := by
          intro same
          rw [le_iff_rank middle right] at order
          unfold rank at order
          rw [same] at order
          exact apart (eq_infinity_of_le (isNumber right) order)
        change (a - b).toModel.unpack.isNaN = false
        rw [unpack_sub_infinity value middle below]
        rfl
    | negative =>
        have lowest := neg_infinityRank_le least
        rw [lt_iff_rank least number] at less
        unfold rank at less
        rw [unpack_sub_infinity value right apart] at less
        exact absurd lowest (not_le_of_gt less)

end DriftField.Scalar
