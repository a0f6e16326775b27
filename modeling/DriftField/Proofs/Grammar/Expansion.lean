import Mathlib
import DriftField.Grammar.Synthesis
/-!
Expansion damps a weight on the way down and gives it back on the way up. It comes to the same as handing down the
weights by value, in which the weight of each category is damped once for every rule of it that is still open.
-/

namespace DriftField

namespace Grammar

/-- The grammars that can be had: all rules, those for points and arithmetic, or those of some categories. -/
inductive Offered : Grammar → Prop
  | full : Offered full
  | pinned : Offered pinned
  | ofCategories {categories : List Category} {grammar : Grammar} (found : ofCategories? categories = some grammar) :
      Offered grammar

theorem Offered.mem_all {grammar : Grammar} (offered : grammar.Offered) {r : Rule} (member : r ∈ grammar.rules) :
    r ∈ Rule.all := by
  cases offered with
  | full => exact member
  | pinned => exact (List.mem_filter.mp member).1
  | @ofCategories categories _ found =>
      unfold ofCategories? at found
      simp only at found
      split at found
      · cases found
        exact (List.mem_filter.mp member).1
      · cases found

end Grammar

namespace Weights

variable {α : Type}

def ofFn (f : Category → α) : Weights α :=
  ⟨f .point, f .length, f .trigonometry, f .arithmetic, f .minMax, f .exponential, f .sign, f .evenOdd⟩

@[simp] theorem get_ofFn (f : Category → α) (c : Category) : (ofFn f).get c = f c := by
  cases c <;> rfl

/-- A weight that is set and then set back leaves no trace. -/
theorem set_set_get (w : Weights α) (c : Category) (v : α) : (w.set c v).set c (w.get c) = w := by
  ext d
  by_cases same : c = d
  · subst same
    simp
  · simp [same]

variable [Weighing α]

/-- The weights under some open rules: that of each category is quartered once for every rule of it. -/
def under (w : Weights α) (opened : List Category) : Weights α :=
  ofFn fun c => (· * 0.25)^[opened.count c] (w.get c)

@[simp] theorem under_nil (w : Weights α) : w.under [] = w := by
  ext c
  simp [under]

theorem under_cons (w : Weights α) (c : Category) (opened : List Category) :
    w.under (c :: opened) = (w.under opened).set c ((w.under opened).get c * Synthesis.damping) := by
  ext d
  by_cases same : c = d
  · subst same
    simp [under, Function.iterate_succ_apply', Synthesis.damping]
  · simp [under, same]

end Weights

namespace Synthesis

variable {α : Type}

def State.weigh (t : State α) (c : Category) (v : α) : State α := { t with weights := t.weights.set c v }

def State.next (t : State α) : State α := { t with stream := t.stream.next }

@[simp] theorem State.weights_next (t : State α) : t.next.weights = t.weights := rfl

@[simp] theorem State.weights_weigh (t : State α) (c : Category) (v : α) :
    (t.weigh c v).weights = t.weights.set c v := rfl

/-! What the steps of a computation give, and in which state. -/

theorem run_bind {β γ : Type} (x : Build α β) (f : β → Build α γ) (t : State α) :
    (x >>= f).run t =
      match x.run t with
      | (.ok b, after) => (f b).run after
      | (.error e, after) => (.error e, after) := by
  change ExceptT.bindCont f (x.run t).1 (x.run t).2 = _
  rcases x.run t with ⟨_ | _, after⟩ <;> rfl

theorem run_map {β γ : Type} (f : β → γ) (x : Build α β) (t : State α) :
    (f <$> x).run t = ((x.run t).1.map f, (x.run t).2) := by
  rw [map_eq_pure_bind, run_bind]
  rcases x.run t with ⟨_ | _, after⟩ <;> rfl

theorem run_get (t : State α) : (get : Build α (State α)).run t = (.ok t, t) := rfl

theorem run_modify (f : State α → State α) (t : State α) : (modify f : Build α Unit).run t = (.ok (), f t) := rfl

theorem run_lift {β : Type} (x : StateM (State α) β) (t : State α) :
    (ExceptT.lift x : Build α β).run t = (.ok (x t).1, (x t).2) := rfl

variable [Weighing α]

theorem run_unit (t : State α) :
    (unit : Build α α).run t = (.ok (Weighing.unitOfWord t.stream.next.state), t.next) := rfl

def picked (rules : List Rule) (w : Weights α) (stream : Stream) : Except α Rule :=
  (Weights.select (w.probabilities rules) (Weighing.unitOfWord stream.next.state)).map fun i =>
    rules.get (i.cast (by simp))

theorem mem_of_picked {rules : List Rule} {w : Weights α} {stream : Stream} {rule : Rule}
    (drawn : picked rules w stream = .ok rule) : rule ∈ rules := by
  unfold picked at drawn
  cases place : Weights.select (w.probabilities rules) (Weighing.unitOfWord stream.next.state) with
  | error mass =>
      rw [place] at drawn
      cases drawn
  | ok i =>
      rw [place] at drawn
      cases drawn
      exact List.get_mem rules _

def State.damp (t : State α) (c : Category) : State α := t.weigh c (t.weights.get c * damping)

theorem run_drawRule (rules : List Rule) (t : State α) :
    (drawRule rules).run t = ((picked rules t.weights t.stream).mapError .exhausted, t.next) := by
  unfold drawRule picked
  simp only [run_bind, run_get, run_unit]
  rcases Weights.select (t.weights.probabilities rules) (Weighing.unitOfWord t.stream.next.state) with _ | _ <;> rfl

/-- A computation under damping sees the damped weight, and whatever it comes to, the former weight is back after it. -/
theorem run_damped {β : Type} (c : Category) (body : Build α β) (t : State α) :
    (damped c body).run t =
      ((body.run (t.damp c)).1, (body.run (t.damp c)).2.weigh c (t.weights.get c)) := by
  unfold damped State.damp State.weigh
  simp only [run_bind, run_get, run_modify, run_lift]
  rcases body.run ⟨t.weights.set c (t.weights.get c * damping), t.stream⟩ with ⟨_ | _, after⟩ <;> rfl

/-! All that an expansion can do. -/

section Step

variable {rules : List Rule} {t : State α} {rule : Rule}

theorem run_expand_of_error {mass : α} (drawn : picked rules t.weights t.stream = .error mass) (nesting : Nat) :
    (expand rules (nesting + 1)).run t = (.error (.exhausted mass), t.next) := by
  rw [expand, run_bind, run_drawRule, drawn]
  rfl

theorem run_expand_terminal {e : Expr} (drawn : picked rules t.weights t.stream = .ok rule)
    (shape : rule.production = .terminal e) (nesting : Nat) :
    (expand rules (nesting + 1)).run t = (.ok e, t.next) := by
  rw [expand, run_bind, run_drawRule, drawn]
  simp only [Except.mapError, shape]
  rfl

theorem run_expand_unary {build : Expr → Expr} (drawn : picked rules t.weights t.stream = .ok rule)
    (shape : rule.production = .unary build) (nesting : Nat) :
    (expand rules (nesting + 1)).run t =
      (((expand rules nesting).run (t.next.damp rule.category)).1.map build,
        ((expand rules nesting).run (t.next.damp rule.category)).2.weigh rule.category
          (t.weights.get rule.category)) := by
  rw [expand, run_bind, run_drawRule, drawn]
  simp only [Except.mapError, shape, run_map, run_damped]
  rfl

theorem run_expand_of_left {build : Expr → Expr → Expr} {nesting : Nat} {failure : Failure α} {after : State α}
    (drawn : picked rules t.weights t.stream = .ok rule) (shape : rule.production = .binary build)
    (left : (expand rules nesting).run (t.next.damp rule.category) = (.error failure, after)) :
    (expand rules (nesting + 1)).run t =
      (.error failure, after.weigh rule.category (t.weights.get rule.category)) := by
  rw [expand, run_bind, run_drawRule, drawn]
  simp only [Except.mapError, shape, run_damped, run_bind, State.weights_next, left]

theorem run_expand_binary {build : Expr → Expr → Expr} {nesting : Nat} {a : Expr} {between : State α}
    (drawn : picked rules t.weights t.stream = .ok rule) (shape : rule.production = .binary build)
    (left : (expand rules nesting).run (t.next.damp rule.category) = (.ok a, between)) :
    (expand rules (nesting + 1)).run t =
      (((expand rules nesting).run between).1.map (build a),
        ((expand rules nesting).run between).2.weigh rule.category (t.weights.get rule.category)) := by
  rw [expand, run_bind, run_drawRule, drawn]
  simp only [Except.mapError, shape, run_damped, run_bind, State.weights_next, left]
  rcases (expand rules nesting).run between with ⟨_ | _, after⟩ <;> rfl

/-- Induction along an expansion, with a case for each way in which it can go on. -/
theorem expand_induction (rules : List Rule) {motive : Nat → State α → Prop}
    (unfinished : ∀ t, motive 0 t)
    (exhausted : ∀ (nesting : Nat) t mass, picked rules t.weights t.stream = .error mass → motive (nesting + 1) t)
    (terminal : ∀ (nesting : Nat) t rule e, picked rules t.weights t.stream = .ok rule →
      rule.production = .terminal e → motive (nesting + 1) t)
    (unary : ∀ (nesting : Nat) t rule build, picked rules t.weights t.stream = .ok rule →
      rule.production = .unary build → motive nesting (t.next.damp rule.category) → motive (nesting + 1) t)
    (left : ∀ (nesting : Nat) t rule build failure after, picked rules t.weights t.stream = .ok rule →
      rule.production = .binary build →
      (expand rules nesting).run (t.next.damp rule.category) = (.error failure, after) →
      motive nesting (t.next.damp rule.category) → motive (nesting + 1) t)
    (binary : ∀ (nesting : Nat) t rule build a between, picked rules t.weights t.stream = .ok rule →
      rule.production = .binary build →
      (expand rules nesting).run (t.next.damp rule.category) = (.ok a, between) →
      motive nesting (t.next.damp rule.category) → motive nesting between → motive (nesting + 1) t)
    (nesting : Nat) (t : State α) : motive nesting t := by
  induction nesting generalizing t with
  | zero => exact unfinished t
  | succ nesting induction =>
      cases drawn : picked rules t.weights t.stream with
      | error mass => exact exhausted nesting t mass drawn
      | ok rule =>
          cases shape : rule.production with
          | terminal e => exact terminal nesting t rule e drawn shape
          | unary build => exact unary nesting t rule build drawn shape (induction _)
          | binary build =>
              rcases first : (expand rules nesting).run (t.next.damp rule.category) with ⟨failure | a, after⟩
              · exact left nesting t rule build failure after drawn shape first (induction _)
              · exact binary nesting t rule build a after drawn shape first (induction _) (induction _)

end Step

/-- An expansion leaves the weights as it found them, however it ends. -/
theorem weights_expand (rules : List Rule) (nesting : Nat) (t : State α) :
    ((expand rules nesting).run t).2.weights = t.weights := by
  induction nesting, t using @expand_induction α _ rules with
  | unfinished t => rfl
  | exhausted nesting t mass drawn => rw [run_expand_of_error drawn, State.weights_next]
  | terminal nesting t rule e drawn shape => rw [run_expand_terminal drawn shape, State.weights_next]
  | unary nesting t rule build drawn shape part =>
      rw [run_expand_unary drawn shape, State.weights_weigh, part]
      exact Weights.set_set_get _ _ _
  | left nesting t rule build failure after drawn shape first part =>
      rw [first] at part
      rw [run_expand_of_left drawn shape first, State.weights_weigh, part]
      exact Weights.set_set_get _ _ _
  | binary nesting t rule build a between drawn shape first part part' =>
      rw [first] at part
      rw [run_expand_binary drawn shape first, State.weights_weigh, part', part]
      exact Weights.set_set_get _ _ _

theorem components_cases (rules : List Rule) (t : State α) :
    (∃ failure between, (expand rules greatestNesting).run t = (.error failure, between) ∧
      (components rules).run t = (.error failure, between)) ∨
    (∃ x between, (expand rules greatestNesting).run t = (.ok x, between) ∧
      ((∃ failure after, (expand rules greatestNesting).run between = (.error failure, after) ∧
        (components rules).run t = (.error failure, after)) ∨
      (∃ y after, (expand rules greatestNesting).run between = (.ok y, after) ∧
        (components rules).run t = (.ok ⟨x, y⟩, after)))) := by
  unfold components
  -- The bound is a large numeral, which nothing here may evaluate.
  generalize greatestNesting = nesting
  rw [run_bind]
  rcases first : (expand rules nesting).run t with ⟨failure | x, between⟩
  · exact .inl ⟨failure, between, rfl, rfl⟩
  · refine .inr ⟨x, between, rfl, ?_⟩
    simp only [run_bind]
    rcases second : (expand rules nesting).run between with ⟨failure | y, after⟩
    · exact .inl ⟨failure, after, rfl, rfl⟩
    · exact .inr ⟨y, after, rfl, rfl⟩

/-- What an expansion comes to that hands its weights down by value, from the base weights `w` and under some open
rules. Each rule takes one number from the stream and then builds its parts, the left one first; only they see its
category damped once more. -/
inductive Grown (rules : List Rule) (w : Weights α) : List Category → Stream → Except α Expr → Stream → Prop
  | exhausted {opened : List Category} {stream : Stream} {mass : α}
      (drawn : picked rules (w.under opened) stream = .error mass) :
      Grown rules w opened stream (.error mass) stream.next
  | terminal {opened : List Category} {stream : Stream} {rule : Rule} {e : Expr}
      (drawn : picked rules (w.under opened) stream = .ok rule) (shape : rule.production = .terminal e) :
      Grown rules w opened stream (.ok e) stream.next
  | unary {opened : List Category} {stream after : Stream} {rule : Rule} {build : Expr → Expr}
      {result : Except α Expr}
      (drawn : picked rules (w.under opened) stream = .ok rule) (shape : rule.production = .unary build)
      (part : Grown rules w (rule.category :: opened) stream.next result after) :
      Grown rules w opened stream (result.map build) after
  | leftExhausted {opened : List Category} {stream after : Stream} {rule : Rule} {build : Expr → Expr → Expr}
      {mass : α}
      (drawn : picked rules (w.under opened) stream = .ok rule) (shape : rule.production = .binary build)
      (left : Grown rules w (rule.category :: opened) stream.next (.error mass) after) :
      Grown rules w opened stream (.error mass) after
  | binary {opened : List Category} {stream between after : Stream} {rule : Rule} {build : Expr → Expr → Expr}
      {a : Expr} {result : Except α Expr}
      (drawn : picked rules (w.under opened) stream = .ok rule) (shape : rule.production = .binary build)
      (left : Grown rules w (rule.category :: opened) stream.next (.ok a) between)
      (right : Grown rules w (rule.category :: opened) between result after) :
      Grown rules w opened stream (result.map (build a)) after

/-- The expansion ends, with a tree or because no rule was selected. -/
def Expands (rules : List Rule) (t : State α) (result : Except α Expr) (after : State α) : Prop :=
  ∃ nesting, (expand rules nesting).run t = (result.mapError .exhausted, after)

section Grown

variable {rules : List Rule} {w : Weights α} {opened : List Category} {stream after : Stream}
  {result : Except α Expr}

theorem weights_damp {t : State α} (weights : t.weights = w.under opened) (c : Category) :
    (t.next.damp c).weights = w.under (c :: opened) := by
  rw [Weights.under_cons, ← weights]
  rfl

theorem damp_under (c : Category) :
    (⟨w.under opened, stream⟩ : State α).next.damp c = ⟨w.under (c :: opened), stream.next⟩ := by
  rw [Weights.under_cons]
  rfl

theorem weigh_under (c : Category) :
    (⟨w.under (c :: opened), stream⟩ : State α).weigh c ((w.under opened).get c) = ⟨w.under opened, stream⟩ := by
  rw [Weights.under_cons, State.weigh, Weights.set_set_get]

omit [Weighing α] in
theorem eq_error_of_mapError {β : Type} {result : Except α β} {failure : Failure α}
    (reported : .error failure = result.mapError Failure.exhausted) :
    ∃ mass, failure = .exhausted mass ∧ result = .error mass := by
  cases result with
  | ok b => cases reported
  | error mass => exact ⟨mass, Except.error.inj reported, rfl⟩

omit [Weighing α] in
theorem exists_of_map_eq_mapError {β γ : Type} {f : β → γ} {part : Except (Failure α) β} {result : Except α γ}
    (reported : part.map f = result.mapError .exhausted) :
    ∃ part' : Except α β, part = part'.mapError .exhausted ∧ result = part'.map f := by
  cases part with
  | error failure =>
      obtain ⟨mass, rfl, rfl⟩ := eq_error_of_mapError reported
      exact ⟨.error mass, rfl, rfl⟩
  | ok b =>
      cases result with
      | error mass => cases reported
      | ok c => exact ⟨.ok b, rfl, congrArg Except.ok (Except.ok.inj reported).symm⟩

theorem grown_of_run {nesting : Nat} {t : State α} (weights : t.weights = w.under opened)
    (ran : ((expand rules nesting).run t).1 = result.mapError .exhausted) :
    Grown rules w opened t.stream result ((expand rules nesting).run t).2.stream := by
  induction nesting, t using @expand_induction α _ rules generalizing opened result with
  | unfinished t =>
      obtain ⟨mass, unfinished, -⟩ := eq_error_of_mapError ran
      cases unfinished
  | exhausted nesting t mass drawn =>
      rw [run_expand_of_error drawn] at ran ⊢
      obtain ⟨mass', same, rfl⟩ := eq_error_of_mapError ran
      cases same
      exact .exhausted (weights ▸ drawn)
  | terminal nesting t rule e drawn shape =>
      rw [run_expand_terminal drawn shape] at ran ⊢
      cases result with
      | error mass => cases ran
      | ok e' =>
          cases ran
          exact .terminal (weights ▸ drawn) shape
  | unary nesting t rule build drawn shape part =>
      rw [run_expand_unary drawn shape] at ran ⊢
      obtain ⟨result, came, rfl⟩ := exists_of_map_eq_mapError ran
      exact .unary (weights ▸ drawn) shape (part (weights_damp weights _) came)
  | left nesting t rule build failure after drawn shape first left =>
      rw [run_expand_of_left drawn shape first] at ran ⊢
      rw [first] at left
      obtain ⟨mass, rfl, rfl⟩ := eq_error_of_mapError ran
      exact .leftExhausted (weights ▸ drawn) shape (@left _ (.error mass) (weights_damp weights _) rfl)
  | binary nesting t rule build a between drawn shape first left right =>
      -- The left part has mended the table, so the right one sees the weights that the left one saw.
      have restored := weights_expand rules nesting (t.next.damp rule.category)
      rw [first] at left restored
      rw [run_expand_binary drawn shape first] at ran ⊢
      obtain ⟨result, came, rfl⟩ := exists_of_map_eq_mapError ran
      exact .binary (weights ▸ drawn) shape (@left _ (.ok a) (weights_damp weights _) rfl)
        (right (restored.trans (weights_damp weights _)) came)

theorem exists_least_of_succ {P : Nat → Prop} {least : Nat} (holds : ∀ inner, least ≤ inner → P (inner + 1)) :
    ∃ least, ∀ nesting, least ≤ nesting → P nesting := by
  refine ⟨least + 1, fun nesting deep => ?_⟩
  cases nesting with
  | zero => exact absurd deep (Nat.not_succ_le_zero least)
  | succ inner => exact holds inner (Nat.le_of_succ_le_succ deep)

/-- Whatever comes of handing weights down comes of every expansion that may nest deeply enough. -/
theorem Grown.exists_run (grown : Grown rules w opened stream result after) :
    ∃ least, ∀ nesting, least ≤ nesting →
      (expand rules nesting).run ⟨w.under opened, stream⟩ =
        (result.mapError .exhausted, ⟨w.under opened, after⟩) := by
  induction grown with
  | exhausted drawn => exact exists_least_of_succ fun inner (_ : 0 ≤ inner) => run_expand_of_error drawn inner
  | terminal drawn shape =>
      exact exists_least_of_succ fun inner (_ : 0 ≤ inner) => run_expand_terminal drawn shape inner
  | @unary _ _ _ _ _ result drawn shape _ part =>
      obtain ⟨least, part⟩ := part
      refine exists_least_of_succ fun inner (deep : least ≤ inner) => ?_
      rw [run_expand_unary drawn shape, damp_under, part inner deep, weigh_under]
      cases result <;> rfl
  | leftExhausted drawn shape _ left =>
      obtain ⟨least, left⟩ := left
      refine exists_least_of_succ fun inner (deep : least ≤ inner) => ?_
      rw [run_expand_of_left drawn shape ((congrArg _ (damp_under _)).trans (left inner deep))]
      exact Prod.ext rfl (weigh_under _)
  | @binary _ _ _ _ _ _ _ result drawn shape _ _ left right =>
      obtain ⟨least, left⟩ := left
      obtain ⟨least', right⟩ := right
      refine exists_least_of_succ fun inner (deep : max least least' ≤ inner) => ?_
      have first := (congrArg _ (damp_under _)).trans (left inner (le_of_max_le_left deep))
      rw [run_expand_binary drawn shape first, right inner (le_of_max_le_right deep), weigh_under]
      cases result <;> rfl

theorem mapError_injective {ε ε' β : Type} {f : ε → ε'} (injective : Function.Injective f) :
    Function.Injective (Except.mapError f : Except ε β → Except ε' β) := by
  intro a b same
  cases a <;> cases b <;> simp_all [Except.mapError, injective.eq_iff]

/-- Handing weights down comes to one thing only. -/
theorem Grown.unique {result' : Except α Expr} {after' : Stream} (grown : Grown rules w opened stream result after)
    (grown' : Grown rules w opened stream result' after') : result' = result ∧ after' = after := by
  obtain ⟨least, runs⟩ := grown.exists_run
  obtain ⟨least', runs'⟩ := grown'.exists_run
  have same := (runs' _ (Nat.le_max_right least least')).symm.trans (runs _ (Nat.le_max_left least least'))
  obtain ⟨outcome, state⟩ := Prod.mk.inj same
  exact ⟨mapError_injective (fun _ _ => Failure.exhausted.inj) outcome, congrArg State.stream state⟩

/-- Expansion with one table of weights, damped on the way down and mended on the way up, ends exactly when handing the
weights down by value does, with the same tree or error and the same stream, and with the weights it began with. -/
theorem expands_iff_grown (rules : List Rule) (w : Weights α) (stream : Stream) (result : Except α Expr)
    (after : State α) :
    Expands rules ⟨w, stream⟩ result after ↔
      (∀ result' stream', Grown rules w [] stream result' stream' ↔ result' = result ∧ stream' = after.stream) ∧
        after.weights = w := by
  constructor
  · rintro ⟨nesting, ran⟩
    have restored := weights_expand rules nesting ⟨w, stream⟩
    rw [← Weights.under_nil w] at ran
    have grown : Grown rules w [] stream result _ := grown_of_run rfl (congrArg Prod.fst ran)
    rw [ran] at grown
    rw [← Weights.under_nil w, ran] at restored
    refine ⟨fun result' stream' => ⟨grown.unique, ?_⟩, restored.trans w.under_nil⟩
    rintro ⟨rfl, rfl⟩
    exact grown
  · rintro ⟨outcomes, restored⟩
    obtain ⟨nesting, runs⟩ := ((outcomes result after.stream).mpr ⟨rfl, rfl⟩).exists_run
    refine ⟨nesting, ?_⟩
    have ran := runs nesting (Nat.le_refl nesting)
    rw [Weights.under_nil] at ran
    rw [ran, ← restored]

end Grown

end Synthesis

end DriftField
