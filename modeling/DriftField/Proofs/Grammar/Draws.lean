import Mathlib
import DriftField.Proofs.Grammar.Expansion
/-!
The draws of an expansion. With exact weights each of them selects a rule, since damping never reaches a category that
has a terminal rule: an expansion cannot be exhausted.
-/

namespace DriftField

/-- Weights whose arithmetic is exact. A draw is the same number as with binary64 weights. -/
instance Weighing.exact : Weighing ℚ where
  unitOfWord w := (w >>> 11).toNat / 9007199254740992
  decidableLT := inferInstance
  decidableLE := inferInstance

theorem Weighing.unitOfWord_lt_one (w : UInt64) : (Weighing.unitOfWord w : ℚ) < 1 := by
  have below : (w >>> 11).toNat < 9007199254740992 := by
    have bound := w.toNat_lt
    rw [UInt64.toNat_shiftRight, Nat.shiftRight_eq_div_pow]
    change w.toNat / 2048 < _
    omega
  change ((w >>> 11).toNat : ℚ) / 9007199254740992 < 1
  rw [div_lt_one (by norm_num)]
  exact_mod_cast below

namespace Weights

theorem walk_ne_none {α : Type} [Weighing α] {threshold total : α} {ps : List α} (nonempty : ps ≠ [])
    (below : threshold < ps.foldl (· + ·) total) : walk threshold total ps ≠ none := by
  induction ps generalizing total with
  | nil => exact absurd rfl nonempty
  | cons p ps induction =>
      rw [walk]
      split
      · exact Option.some_ne_none _
      · next later =>
        cases ps with
        | nil => exact absurd below later
        | cons q ps => simpa using induction (List.cons_ne_nil q ps) below

theorem sum_eq (vs : List ℚ) : sum vs = vs.sum := by
  have zero : (@OfScientific.ofScientific ℚ Weighing.exact.toOfScientific 0 true 1) = 0 := by
    norm_num
  rw [List.sum_eq_foldl, sum, zero]

theorem isUnit_one : isUnit (1 : ℚ) = true := by
  decide +kernel

theorem exists_select_eq_ok {ps : List ℚ} {draw : ℚ} (whole : sum ps = 1) (below : draw < 1) :
    ∃ i, select ps draw = .ok i := by
  have nonempty : ps ≠ [] := by
    rintro rfl
    rw [sum_eq] at whole
    cases whole
  have reached : draw * 1 < sum ps := by
    rw [whole, mul_one]
    exact below
  unfold select
  simp only [whole, isUnit_one]
  cases walked : walk (draw * 1) 0.0 ps with
  | none => exact absurd walked (walk_ne_none nonempty reached)
  | some i => exact ⟨i, rfl⟩

def total {α : Type} [Weighing α] (w : Weights α) (rules : List Rule) : α :=
  sum (rules.map fun r => w.get r.category)

section Exact

variable {w : Weights ℚ} {rules : List Rule}

theorem total_pos {r : Rule} (nonneg : ∀ c, 0 ≤ w.get c) (member : r ∈ rules) (positive : 0 < w.get r.category) :
    0 < w.total rules := by
  have weighed : w.get r.category ∈ rules.map fun r => w.get r.category := List.mem_map.mpr ⟨r, member, rfl⟩
  have all : ∀ v ∈ rules.map fun r => w.get r.category, 0 ≤ v := by
    intro v member
    obtain ⟨r, -, rfl⟩ := List.mem_map.mp member
    exact nonneg r.category
  rw [total, sum_eq]
  exact positive.trans_le (List.single_le_sum all _ weighed)

theorem probabilities_nonneg (nonneg : ∀ c, 0 ≤ w.get c) (positive : 0 < w.total rules) :
    ∀ p ∈ w.probabilities rules, 0 ≤ p := by
  intro p member
  obtain ⟨r, -, rfl⟩ := List.mem_map.mp member
  exact div_nonneg (nonneg r.category) positive.le

theorem sum_probabilities (positive : 0 < w.total rules) : sum (w.probabilities rules) = 1 := by
  have shares : w.probabilities rules = rules.map fun r => w.get r.category * (w.total rules)⁻¹ :=
    List.map_congr_left fun r _ => div_eq_mul_inv _ _
  rw [shares, sum_eq, List.sum_map_mul_right, ← sum_eq]
  exact mul_inv_cancel₀ positive.ne'

end Exact

theorem base_pos (c : Category) : 0 < (base : Weights ℚ).get c := by
  cases c <;> decide +kernel

/-- Weights that damping has left alone where it may not reach: every category with a terminal rule has its full
weight. -/
structure Fair (rules : List Rule) (w : Weights ℚ) : Prop where
  full : ∀ r ∈ rules, r.isTerminal = true → w.get r.category = base.get r.category
  nonneg : ∀ c, 0 ≤ w.get c

namespace Fair

variable {w : Weights ℚ} {rules : List Rule}

theorem base (rules : List Rule) : Fair rules Weights.base where
  full _ _ _ := rfl
  nonneg c := (base_pos c).le

theorem total_pos (fair : Fair rules w) (ends : rules.any Rule.isTerminal = true) : 0 < w.total rules := by
  obtain ⟨r, member, terminal⟩ := List.any_eq_true.mp ends
  have positive : 0 < w.get r.category := by
    rw [fair.full r member terminal]
    exact base_pos r.category
  exact Weights.total_pos fair.nonneg member positive

theorem damp {r : Rule} (fair : Fair rules w)
    (separate : ∀ r' ∈ rules, r'.isTerminal = true → r'.category ≠ r.category) :
    Fair rules (w.set r.category (w.get r.category * Synthesis.damping)) where
  full r' member terminal := by
    rw [get_set, if_neg (separate r' member terminal).symm]
    exact fair.full r' member terminal
  nonneg c := by
    rw [get_set]
    split
    · exact mul_nonneg (fair.nonneg r.category) (by decide +kernel)
    · exact fair.nonneg c

end Fair

end Weights

/-- No category has terminal rules and others. -/
def Rule.Separated (rules : List Rule) : Prop :=
  ∀ r ∈ rules, ∀ r' ∈ rules, r.category = r'.category → r.isTerminal = r'.isTerminal

theorem Rule.separated_all : Rule.Separated Rule.all := by
  unfold Rule.Separated
  decide +kernel

namespace Grammar

theorem Offered.separated {grammar : Grammar} (offered : grammar.Offered) : Rule.Separated grammar.rules :=
  fun r member r' member' =>
    Rule.separated_all r (offered.mem_all member) r' (offered.mem_all member')

end Grammar

namespace Synthesis

variable {α : Type} [Weighing α] {rules : List Rule}

/-- The states in which the rules of an expansion are drawn, in their order. -/
def draws (rules : List Rule) : (nesting : Nat) → State α → List (State α)
  | 0, _ => []
  | nesting + 1, t =>
      t :: match picked rules t.weights t.stream with
        | .error _ => []
        | .ok rule =>
            let inner := t.next.damp rule.category
            match rule.production with
            | .terminal _ => []
            | .unary _ => draws rules nesting inner
            | .binary _ =>
                match (expand rules nesting).run inner with
                | (.error _, _) => draws rules nesting inner
                | (.ok _, between) => draws rules nesting inner ++ draws rules nesting between

section Step

variable {t : State α} {rule : Rule}

theorem draws_of_error {mass : α} (drawn : picked rules t.weights t.stream = .error mass) (nesting : Nat) :
    draws rules (nesting + 1) t = [t] := by
  rw [draws, drawn]

theorem draws_terminal {e : Expr} (drawn : picked rules t.weights t.stream = .ok rule)
    (shape : rule.production = .terminal e) (nesting : Nat) : draws rules (nesting + 1) t = [t] := by
  rw [draws, drawn]
  simp only [shape]

theorem draws_unary {build : Expr → Expr} (drawn : picked rules t.weights t.stream = .ok rule)
    (shape : rule.production = .unary build) (nesting : Nat) :
    draws rules (nesting + 1) t = t :: draws rules nesting (t.next.damp rule.category) := by
  rw [draws, drawn]
  simp only [shape]

theorem draws_of_left {build : Expr → Expr → Expr} {nesting : Nat} {failure : Failure α} {after : State α}
    (drawn : picked rules t.weights t.stream = .ok rule) (shape : rule.production = .binary build)
    (left : (expand rules nesting).run (t.next.damp rule.category) = (.error failure, after)) :
    draws rules (nesting + 1) t = t :: draws rules nesting (t.next.damp rule.category) := by
  rw [draws, drawn]
  simp only [shape, left]

theorem draws_binary {build : Expr → Expr → Expr} {nesting : Nat} {a : Expr} {between : State α}
    (drawn : picked rules t.weights t.stream = .ok rule) (shape : rule.production = .binary build)
    (left : (expand rules nesting).run (t.next.damp rule.category) = (.ok a, between)) :
    draws rules (nesting + 1) t =
      t :: (draws rules nesting (t.next.damp rule.category) ++ draws rules nesting between) := by
  rw [draws, drawn]
  simp only [shape, left]

end Step

/-- No draw is missing: each takes the next number of the stream, and nothing else is taken. -/
theorem streams_draws (rules : List Rule) (nesting : Nat) (t : State α) :
    (draws rules nesting t).map State.stream = List.iterate Stream.next t.stream (draws rules nesting t).length ∧
      ((expand rules nesting).run t).2.stream = Stream.next^[(draws rules nesting t).length] t.stream := by
  induction nesting, t using @expand_induction α _ rules with
  | unfinished t => exact ⟨rfl, rfl⟩
  | exhausted nesting t mass drawn =>
      rw [run_expand_of_error drawn, draws_of_error drawn]
      exact ⟨rfl, rfl⟩
  | terminal nesting t rule e drawn shape =>
      rw [run_expand_terminal drawn shape, draws_terminal drawn shape]
      exact ⟨rfl, rfl⟩
  | unary nesting t rule build drawn shape part =>
      obtain ⟨streams, last⟩ := part
      rw [run_expand_unary drawn shape, draws_unary drawn shape, List.map_cons, List.length_cons, streams]
      exact ⟨rfl, last⟩
  | left nesting t rule build failure after drawn shape first part =>
      obtain ⟨streams, last⟩ := part
      rw [first] at last
      rw [run_expand_of_left drawn shape first, draws_of_left drawn shape first, List.map_cons, List.length_cons,
        streams]
      exact ⟨rfl, last⟩
  | binary nesting t rule build a between drawn shape first part part' =>
      obtain ⟨streams, last⟩ := part
      obtain ⟨streams', last'⟩ := part'
      rw [first] at last
      change between.stream = _ at last
      rw [run_expand_binary drawn shape first, draws_binary drawn shape first, List.map_cons, List.length_cons,
        List.map_append, List.length_append, streams, streams', last]
      refine ⟨congrArg _ (List.iterate_add _ _ _ _).symm, last'.trans ?_⟩
      rw [last, Function.iterate_succ_apply, Nat.add_comm, Function.iterate_add_apply]
      rfl

omit [Weighing α] in
theorem eq_error_of_map {ε β γ : Type} {f : β → γ} {x : Except ε β} {e : ε} (mapped : x.map f = .error e) :
    x = .error e := by
  cases x with
  | error e' => exact congrArg Except.error (Except.error.inj mapped)
  | ok b => cases mapped

/-- An expansion is exhausted by one of its draws. -/
theorem exists_draw_of_exhausted {nesting : Nat} {t : State α} {mass : α}
    (ran : ((expand rules nesting).run t).1 = .error (.exhausted mass)) :
    ∃ u ∈ draws rules nesting t, picked rules u.weights u.stream = .error mass := by
  induction nesting, t using @expand_induction α _ rules with
  | unfinished t => cases ran
  | exhausted nesting t mass' drawn =>
      rw [run_expand_of_error drawn] at ran
      cases ran
      rw [draws_of_error drawn]
      exact ⟨t, List.mem_singleton_self t, drawn⟩
  | terminal nesting t rule e drawn shape =>
      rw [run_expand_terminal drawn shape] at ran
      cases ran
  | unary nesting t rule build drawn shape part =>
      rw [run_expand_unary drawn shape] at ran
      obtain ⟨u, member, failed⟩ := part (eq_error_of_map ran)
      rw [draws_unary drawn shape]
      exact ⟨u, List.mem_cons_of_mem _ member, failed⟩
  | left nesting t rule build failure after drawn shape first part =>
      rw [run_expand_of_left drawn shape first] at ran
      rw [first] at part
      obtain ⟨u, member, failed⟩ := part ran
      rw [draws_of_left drawn shape first]
      exact ⟨u, List.mem_cons_of_mem _ member, failed⟩
  | binary nesting t rule build a between drawn shape first part part' =>
      rw [run_expand_binary drawn shape first] at ran
      obtain ⟨u, member, failed⟩ := part' (eq_error_of_map ran)
      rw [draws_binary drawn shape first]
      exact ⟨u, List.mem_cons_of_mem _ (List.mem_append_right _ member), failed⟩

section Exact

variable {nesting : Nat} {t : State ℚ}

theorem fair_damp {rule : Rule} (separated : Rule.Separated rules) (fair : t.weights.Fair rules)
    (drawn : picked rules t.weights t.stream = .ok rule) (opens : rule.isTerminal = false) :
    (t.next.damp rule.category).weights.Fair rules := by
  refine fair.damp fun r member terminal same => ?_
  rw [separated r member rule (mem_of_picked drawn) same, opens] at terminal
  cases terminal

theorem fair_of_mem_draws (separated : Rule.Separated rules) (fair : t.weights.Fair rules) :
    ∀ u ∈ draws rules nesting t, u.weights.Fair rules := by
  induction nesting, t using @expand_induction ℚ _ rules with
  | unfinished t => exact fun u member => absurd member List.not_mem_nil
  | exhausted nesting t mass drawn =>
      rw [draws_of_error drawn]
      exact List.forall_mem_singleton.mpr fair
  | terminal nesting t rule e drawn shape =>
      rw [draws_terminal drawn shape]
      exact List.forall_mem_singleton.mpr fair
  | unary nesting t rule build drawn shape part =>
      rw [draws_unary drawn shape]
      exact List.forall_mem_cons.mpr ⟨fair, part (fair_damp separated fair drawn (by rw [Rule.isTerminal, shape]))⟩
  | left nesting t rule build failure after drawn shape first part =>
      rw [draws_of_left drawn shape first]
      exact List.forall_mem_cons.mpr ⟨fair, part (fair_damp separated fair drawn (by rw [Rule.isTerminal, shape]))⟩
  | binary nesting t rule build a between drawn shape first part part' =>
      have fair' := fair_damp separated fair drawn (by rw [Rule.isTerminal, shape])
      have restored := weights_expand rules nesting (t.next.damp rule.category)
      rw [first] at restored
      rw [draws_binary drawn shape first]
      refine List.forall_mem_cons.mpr ⟨fair, List.forall_mem_append.mpr ⟨part fair', part' ?_⟩⟩
      exact restored.symm ▸ fair'

theorem exists_picked (fair : t.weights.Fair rules) (ends : rules.any Rule.isTerminal = true) :
    ∃ rule, picked rules t.weights t.stream = .ok rule := by
  obtain ⟨i, chosen⟩ := Weights.exists_select_eq_ok (Weights.sum_probabilities (fair.total_pos ends))
    (Weighing.unitOfWord_lt_one t.stream.next.state)
  unfold picked
  rw [chosen]
  exact ⟨_, rfl⟩

theorem not_exhausted (separated : Rule.Separated rules) (ends : rules.any Rule.isTerminal = true)
    (fair : t.weights.Fair rules) (mass : ℚ) : ((expand rules nesting).run t).1 ≠ .error (.exhausted mass) := by
  intro ran
  obtain ⟨u, member, failed⟩ := exists_draw_of_exhausted ran
  obtain ⟨rule, drawn⟩ := exists_picked (fair_of_mem_draws separated fair u member) ends
  rw [failed] at drawn
  cases drawn

theorem components_not_exhausted (separated : Rule.Separated rules) (ends : rules.any Rule.isTerminal = true)
    (fair : t.weights.Fair rules) (mass : ℚ) : ((components rules).run t).1 ≠ .error (.exhausted mass) := by
  intro ran
  have restored := weights_expand rules greatestNesting t
  obtain ⟨failure, between, first, whole⟩ | ⟨x, between, first, ⟨failure, after, second, whole⟩ |
    ⟨y, after, second, whole⟩⟩ := components_cases rules t
  · rw [whole] at ran
    cases ran
    exact not_exhausted separated ends fair mass (congrArg Prod.fst first)
  · rw [whole] at ran
    cases ran
    rw [first] at restored
    have fair' : between.weights.Fair rules := restored ▸ fair
    exact not_exhausted separated ends fair' mass (congrArg Prod.fst second)
  · rw [whole] at ran
    cases ran

end Exact

/-- No grammar that can be had is ever exhausted, by exact weights. At every draw of an expansion the categories with
terminal rules have their full weight, so that the weights of the rules do not sum to zero, the probabilities are none
below zero and sum to one, and a rule of the grammar is drawn. -/
theorem never_exhausted {grammar : Grammar} (offered : grammar.Offered) :
    (∀ nesting stream, ∀ u ∈ draws grammar.rules nesting (⟨Weights.base, stream⟩ : State ℚ),
      (∀ r ∈ grammar.rules, r.isTerminal = true → u.weights.get r.category = Weights.base.get r.category) ∧
      0 < u.weights.total grammar.rules ∧
      (∀ p ∈ u.weights.probabilities grammar.rules, 0 ≤ p) ∧
      Weights.sum (u.weights.probabilities grammar.rules) = 1 ∧
      ∃ rule ∈ grammar.rules, (drawRule grammar.rules).run u = (.ok rule, u.next)) ∧
    (∀ nesting stream (mass : ℚ),
      ((expand grammar.rules nesting).run ⟨Weights.base, stream⟩).1 ≠ .error (.exhausted mass)) ∧
    (∀ stream (mass : ℚ), (start (components grammar.rules) stream).1 ≠ .error (.exhausted mass)) := by
  have fair := Weights.Fair.base grammar.rules
  refine ⟨fun nesting stream u member => ?_, fun nesting stream => ?_, fun stream => ?_⟩
  · have fair' := fair_of_mem_draws offered.separated fair u member
    have positive := fair'.total_pos grammar.canFinish
    obtain ⟨rule, drawn⟩ := exists_picked fair' grammar.canFinish
    refine ⟨fair'.full, positive, Weights.probabilities_nonneg fair'.nonneg positive,
      Weights.sum_probabilities positive, rule, mem_of_picked drawn, ?_⟩
    rw [run_drawRule, drawn]
    rfl
  · exact not_exhausted offered.separated grammar.canFinish fair
  · exact components_not_exhausted offered.separated grammar.canFinish fair

theorem lengths_never_exhausted :
    ∃ grammar, Grammar.ofCategories? [.length, .arithmetic, .evenOdd] = some grammar ∧
      (∀ u ∈ draws grammar.rules 3 (⟨Weights.base, Stream.ofSeed 42⟩ : State ℚ),
        u.weights.get .length = 5 ∧ 0 < u.weights.total grammar.rules ∧
        ∃ rule ∈ grammar.rules, (drawRule grammar.rules).run u = (.ok rule, u.next)) ∧
      ∀ mass : ℚ, (start (components grammar.rules) (Stream.ofSeed 42)).1 ≠ .error (.exhausted mass) := by
  obtain ⟨grammar, found⟩ : ∃ grammar, Grammar.ofCategories? [.length, .arithmetic, .evenOdd] = some grammar :=
    ⟨_, rfl⟩
  obtain ⟨draws, -, ends⟩ := never_exhausted (.ofCategories found)
  refine ⟨grammar, found, fun u member => ?_, ends _⟩
  obtain ⟨full, positive, -, -, drawn⟩ := draws 3 _ u member
  refine ⟨?_, positive, drawn⟩
  have length : ⟨"length", .length, .terminal Production.length⟩ ∈ grammar.rules := by
    cases found
    exact List.mem_filter.mpr ⟨.tail _ (.tail _ (.head _)), rfl⟩
  exact (full _ length rfl).trans (by decide +kernel)

end Synthesis

end DriftField
