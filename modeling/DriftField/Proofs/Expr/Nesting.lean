import Mathlib
import DriftField.Expr.Nesting
import DriftField.Proofs.Expr.Grammar
/-!
The counter of open parentheses, arguments and negations. It is where it was after every rule, also after one that
refuses, and the rules that it lets in are those that the parser has left at the place.
-/

namespace DriftField.Expr.Counting

variable {α β : Type} {n : Nat}

theorem run_bind (m : Counting α) (f : α → Counting β) (n : Nat) :
    (m >>= f).run n =
      match m.run n with
      | (.ok a, k) => (f a).run k
      | (.error e, k) => (.error e, k) := by
  simp only [bind, ExceptT.bind, ExceptT.mk, ExceptT.run, StateT.bind]
  rcases m n with ⟨_ | _, k⟩ <;> rfl

/-- With `n` open, the reading comes to the result, and `n` are open afterwards. -/
def Counts (n : Nat) (reading : Counting α) (result : Except SourceError α) : Prop :=
  reading.run n = (result, n)

theorem Counts.ofExcept (result : Except SourceError α) : Counts n (MonadExcept.ofExcept result) result := by
  cases result <;> rfl

theorem Counts.pure (a : α) : Counts n (Pure.pure a) (.ok a) := rfl

theorem Counts.throw (e : SourceError) : Counts n (throw e : Counting α) (.error e) := rfl

theorem Counts.bind {reading : Counting α} {result : Except SourceError α} {next : α → Counting β}
    {next' : α → Except SourceError β} (first : Counts n reading result)
    (second : ∀ a, Counts n (next a) (next' a)) : Counts n (reading >>= next) (result >>= next') := by
  unfold Counts at first ⊢
  rw [run_bind, first]
  cases result with
  | ok a => exact second a
  | error e => rfl

theorem Counts.bind_error {reading : Counting α} {e : SourceError} (refused : Counts n reading (.error e))
    (next : α → Counting β) : Counts n (reading >>= next) (.error e) := by
  unfold Counts at refused ⊢
  rw [run_bind, refused]

theorem Counts.map {reading : Counting α} {result : Except SourceError α} (f : α → β)
    (counts : Counts n reading result) : Counts n (f <$> reading) (f <$> result) := by
  have mapped : f <$> result = result >>= fun a => .ok (f a) := by
    cases result <;> rfl
  rw [map_eq_pure_bind, mapped]
  exact counts.bind fun a => .pure (f a)

/-- With `n` open, the counting reader reads as the other one. -/
def Reads (n : Nat) (counting : Reader) (reader : Expr.Reader) : Prop :=
  ∀ tokens, Counts n (counting tokens) (reader tokens)

structure Agree (n : Nat) (counting : Rules) (rules : Expr.Rules) : Prop where
  condition : Reads n counting.condition rules.condition
  primary : Reads n counting.primary rules.primary

/-- With `n` open, what the counter lets in is what may be opened. -/
def Within (n : Nat) (counting : Option Rules) (inner : Option Expr.Rules) : Prop :=
  if greatestDepth ≤ n then inner = none else Option.Rel (Agree (n + 1)) counting inner

theorem run_nested_of_full {offset : Nat} {inner : Option Rules} {rule : Rules → Counting α}
    (full : greatestDepth ≤ n) : (nested offset inner rule).run n = (.error ⟨offset, .tooDeep⟩, n) := by
  change ((if greatestDepth ≤ n then _ else _ : Counting α)).run n = _
  rw [if_pos full]
  rfl

theorem run_nested_none {offset : Nat} {rule : Rules → Counting α} (room : n < greatestDepth) :
    (nested offset none rule).run n = (.error ⟨offset, .tooDeep⟩, n) := by
  change ((if greatestDepth ≤ n then _ else _ : Counting α)).run n = _
  rw [if_neg (Nat.not_le.mpr room)]
  rfl

theorem run_modify (f : Nat → Nat) (n : Nat) : (modify f : Counting PUnit).run n = (.ok ⟨⟩, f n) := rfl

theorem run_lift (m : StateM Nat α) (n : Nat) :
    (ExceptT.lift m : Counting α).run n = (.ok (m.run n).1, (m.run n).2) := rfl

theorem run_nested_some {offset : Nat} {rules : Rules} {rule : Rules → Counting α} {result : Except SourceError α}
    (room : n < greatestDepth) (counts : Counts (n + 1) (rule rules) result) :
    Counts n (nested offset (some rules) rule) result := by
  change ((if greatestDepth ≤ n then _ else _ : Counting α)).run n = _
  rw [if_neg (Nat.not_le.mpr room)]
  have inside : (rule rules).run.run (n + 1) = (result, n + 1) := counts
  simp only [Option.getDM, pure_bind, run_bind, run_modify, run_lift, inside]
  cases result with
  | ok a => rfl
  | error e => rfl

/-- What is inside reads alike wherever something may be opened, and is refused elsewhere. -/
theorem nested_cases {counting : Option Rules} {inner : Option Expr.Rules} (within : Within n counting inner)
    {rule : Rules → Counting α} {rule' : Expr.Rules → Except SourceError α} (offset : Nat)
    (reads : ∀ rules rules', Agree (n + 1) rules rules' → Counts (n + 1) (rule rules) (rule' rules')) :
    (inner = none ∧ Counts n (nested offset counting rule) (.error ⟨offset, .tooDeep⟩)) ∨
      ∃ rules, inner = some rules ∧ Counts n (nested offset counting rule) (rule' rules) := by
  unfold Within at within
  split at within
  · next full => exact .inl ⟨within, run_nested_of_full full⟩
  · next room =>
    have room := Nat.not_le.mp room
    cases within with
    | none => exact .inl ⟨rfl, run_nested_none room⟩
    | some agree => exact .inr ⟨_, rfl, run_nested_some room (reads _ _ agree)⟩

theorem Counts.again {offset : Nat} {counting : Option Rules} {rules : Expr.Rules} {rule : Rules → Counting α}
    {rule' : Expr.Rules → Except SourceError α} (within : Within n counting (some rules))
    (reads : ∀ rules rules', Agree (n + 1) rules rules' → Counts (n + 1) (rule rules) (rule' rules')) :
    Counts n (nested offset counting rule) (rule' rules) := by
  obtain ⟨⟨⟩, -⟩ | ⟨_, ⟨⟩, counts⟩ := nested_cases within offset reads
  exact counts

theorem extend_of_stop {operators : List Operator} {operand : Reader} {tokens : List Placed} (left : Parsed tokens)
    (stop : ∀ p ∈ left.rest.head?, ∀ op ∈ operators, p.token ≠ .operator op) :
    extend operators operand left = pure left := by
  rw [extend]
  split
  · next offset op rest found =>
    rw [found] at stop
    rw [if_neg fun member => stop _ rfl op member rfl]
  · rfl

theorem extend_of_operator {operators : List Operator} {operand : Reader} {tokens : List Placed}
    (left : Parsed tokens) {offset : Nat} {op : Operator} {rest : List Placed}
    (found : left.rest = ⟨offset, .operator op⟩ :: rest) (member : op ∈ operators) :
    extend operators operand left = operand rest >>= fun right =>
      if greatestDepth < 1 + max left.depth right.depth then throw ⟨offset, .tooDeep⟩
      else extend operators operand
        ⟨.binary op left.tree right.tree, 1 + max left.depth right.depth, right.rest,
          left.shorter_after found right⟩ := by
  obtain ⟨tree, depth, rest', shorter⟩ := left
  simp only at found
  subst found
  rw [extend]
  exact if_pos member

theorem Counts.extend {operators : List Operator} {counting : Reader} {operand : Expr.Reader}
    (reads : Reads n counting operand) {tokens : List Placed} (left : Parsed tokens) :
    Counts n (extend operators counting left) (Expr.extend operators operand left) := by
  induction size : left.rest.length using Nat.strongRecOn generalizing left with
  | ind size induction =>
      subst size
      by_cases joins : ∃ offset op rest, left.rest = ⟨offset, .operator op⟩ :: rest ∧ op ∈ operators
      · obtain ⟨offset, op, rest, found, member⟩ := joins
        rw [extend_of_operator left found member, Expr.extend_of_operator left found member]
        refine (reads rest).bind fun right => ?_
        split
        · exact .throw _
        · have shorter := right.shorter
          refine induction right.rest.length ?_ _ rfl
          rw [found, List.length_cons]
          omega
      · have stop : ∀ p ∈ left.rest.head?, ∀ op ∈ operators, p.token ≠ .operator op := by
          rintro ⟨offset, token⟩ head op member rfl
          obtain ⟨rest, found⟩ := List.head?_eq_some_iff.mp head
          exact joins ⟨offset, op, rest, found, member⟩
        rw [extend_of_stop left stop, Expr.extend_of_stop left stop]
        exact .pure left

theorem Reads.chain {operators : List Operator} {counting : Reader} {operand : Expr.Reader}
    (reads : Reads n counting operand) : Reads n (chain operators counting) (Expr.chain operators operand) :=
  fun tokens => (reads tokens).bind fun left => .extend reads left

theorem Reads.conditionOf {stop : Nat} {counting : Reader} {equality : Expr.Reader}
    (reads : Reads n counting equality) : Reads n (conditionOf stop counting) (Expr.conditionOf stop equality) := by
  refine fun tokens => (reads tokens).bind fun ⟨tree, depth, rest, shorter⟩ => ?_
  cases rest with
  | nil => exact .pure _
  | cons head rest =>
      obtain ⟨offset, token⟩ := head
      cases token with
      | mark m =>
          cases m with
          | question =>
              refine (reads rest).bind fun a => ?_
              refine (Counts.ofExcept _).bind fun colon => ?_
              exact (reads _).bind fun b => .ofExcept _
          | _ => exact .pure _
      | _ => exact .pure _

section
variable {stop : Nat} {counting : Option Rules} {inner : Option Expr.Rules} (within : Within n counting inner)
include within

theorem Counts.inside {offset : Nat} {rule : Rules → Counting α} {rule' : Expr.Rules → Except SourceError α}
    {next : α → Counting β} {next' : Expr.Rules → α → Except SourceError β}
    (reads : ∀ rules rules', Agree (n + 1) rules rules' → Counts (n + 1) (rule rules) (rule' rules'))
    (later : ∀ rules, inner = some rules → ∀ a, Counts n (next a) (next' rules a)) :
    Counts n (nested offset counting rule >>= next)
      (opened offset inner >>= fun rules => rule' rules >>= next' rules) := by
  obtain ⟨rfl, refused⟩ | ⟨rules, rfl, counts⟩ := nested_cases within offset reads
  · exact refused.bind_error next
  · exact counts.bind (later rules rfl)

theorem Reads.callOf (offset : Nat) (f : Unary) :
    Reads n (callOf stop counting offset f) (Expr.callOf stop inner offset f) := by
  intro tokens
  refine (Counts.ofExcept _).bind fun after => ?_
  refine Counts.inside within (fun _ _ agree => agree.condition _) fun rules known a => ?_
  exact (Counts.ofExcept _).bind fun close => .ofExcept _

theorem Reads.chooseOf (offset : Nat) (f : Choice) :
    Reads n (chooseOf stop counting offset f) (Expr.chooseOf stop inner offset f) := by
  intro tokens
  refine (Counts.ofExcept _).bind fun after => ?_
  refine Counts.inside within (fun _ _ agree => agree.condition _) fun rules known a => ?_
  refine (Counts.ofExcept _).bind fun comma => ?_
  subst known
  refine (Counts.again within fun _ _ agree => agree.condition _).bind fun b => ?_
  exact (Counts.ofExcept _).bind fun close => .ofExcept _

theorem Counts.nameOf (offset : Nat) (name : String) (tokens : List Placed) :
    Counts n (nameOf stop counting offset name tokens) (Expr.nameOf stop inner offset name tokens) := by
  unfold Counting.nameOf Expr.nameOf
  dsimp only
  split
  · exact .pure _
  split
  · exact .pure _
  cases Unary.ofName? name with
  | some f => exact (Reads.callOf within offset f tokens).map _
  | none =>
      cases Choice.ofName? name with
      | some f => exact (Reads.chooseOf within offset f tokens).map _
      | none => exact .throw _

theorem Reads.primaryOf : Reads n (primaryOf stop counting) (Expr.primaryOf stop inner) := by
  intro tokens
  unfold Counting.primaryOf
  split
  · exact .throw _
  · exact .pure _
  · exact .pure _
  · rw [Expr.primaryOf]
    · exact Counts.inside within (fun _ _ agree => agree.primary _) fun _ _ a => .ofExcept _
    · assumption
  · refine Counts.inside within (fun _ _ agree => agree.condition _) fun _ _ a => ?_
    exact (Counts.ofExcept _).bind fun close => .pure _
  · exact .nameOf within _ _ _
  · rw [Expr.primaryOf]
    · exact .throw _
    all_goals assumption

end

def readerOf (stop : Nat) (inner : Option Rules) : Phrase → Reader
  | .condition => (rulesOf stop inner).condition
  | .chain .equality =>
      chain Rank.equality.operators <| chain Rank.sum.operators <|
        chain Rank.product.operators <| primaryOf stop inner
  | .chain .sum => chain Rank.sum.operators <| chain Rank.product.operators <| primaryOf stop inner
  | .chain .product => chain Rank.product.operators <| primaryOf stop inner
  | .primary => primaryOf stop inner

theorem Reads.readerOf {stop : Nat} {counting : Option Rules} {inner : Option Expr.Rules}
    (within : Within n counting inner) (phrase : Phrase) :
    Reads n (readerOf stop counting phrase) (Expr.readerOf stop inner phrase) := by
  have primary : Reads n (Counting.primaryOf stop counting) (Expr.primaryOf stop inner) := .primaryOf within
  match phrase with
  | .primary => exact primary
  | .chain .product => exact primary.chain
  | .chain .sum => exact primary.chain.chain
  | .chain .equality => exact primary.chain.chain.chain
  | .condition => exact primary.chain.chain.chain.conditionOf

def innerRules (stop : Nat) : Nat → Option Rules
  | 0 => none
  | levels + 1 => some (rulesAt stop levels)

theorem rulesAt_eq (stop levels : Nat) : rulesAt stop levels = rulesOf stop (innerRules stop levels) := by
  cases levels <;> rfl

theorem within_innerRules (stop levels n : Nat) :
    Within n (innerRules stop levels) (Expr.innerRules stop (min levels (greatestDepth - n))) := by
  induction levels generalizing n with
  | zero =>
      rw [Nat.zero_min]
      unfold Within
      split
      · rfl
      · exact .none
  | succ levels induction =>
      unfold Within
      split
      · next full => rw [Nat.sub_eq_zero_of_le full, Nat.min_zero]; rfl
      · next room =>
        have left : min (levels + 1) (greatestDepth - n) = min levels (greatestDepth - (n + 1)) + 1 := by omega
        rw [left]
        refine .some ?_
        rw [rulesAt_eq, Expr.rulesAt_eq]
        exact ⟨.readerOf (induction (n + 1)) .condition, .readerOf (induction (n + 1)) .primary⟩

theorem reads_readerOf_innerRules {levels : Nat} (stop : Nat) (enough : greatestDepth ≤ levels + n) (phrase : Phrase) :
    Reads n (readerOf stop (innerRules stop levels) phrase)
      (Expr.readerOf stop (Expr.innerRules stop (greatestDepth - n)) phrase) := by
  have within := within_innerRules stop levels n
  rw [Nat.min_eq_right (by omega)] at within
  exact .readerOf within phrase

theorem counts_ofTokens (stop : Nat) (placed : List Placed) :
    Counts 0 (ofTokens stop placed) (Expr.ofTokens stop placed) := by
  unfold Counting.ofTokens Expr.ofTokens
  rw [rulesAt_eq, Expr.rulesAt_eq]
  refine (reads_readerOf_innerRules stop (Nat.le_refl _) .condition placed).bind fun p => ?_
  cases p.rest with
  | nil => exact .pure _
  | cons extra rest => exact .throw _

/-- With `n` open, `n` are open after the reading, also if it refuses, and the depth that it has kept of what it read is
that of the tree. -/
def Keeps (n : Nat) {tokens : List Placed} (reading : Counting (Parsed tokens)) : Prop :=
  (reading.run n).2 = n ∧ ∀ p, (reading.run n).1 = .ok p → p.depth = p.tree.depth ∧ p.depth ≤ greatestDepth

theorem Counts.keeps {tokens : List Placed} {reading : Counting (Parsed tokens)}
    {result : Except SourceError (Parsed tokens)} (counts : Counts n reading result)
    (measured : ∀ p, result = .ok p → p.depth = p.tree.depth ∧ p.depth ≤ greatestDepth) : Keeps n reading := by
  unfold Counts at counts
  unfold Keeps
  rw [counts]
  exact ⟨rfl, measured⟩

theorem keeps_readerOf (stop levels n : Nat) (phrase : Phrase) (tokens : List Placed) :
    Keeps n (readerOf stop (innerRules stop levels) phrase tokens) :=
  (Reads.readerOf (within_innerRules stop levels n) phrase tokens).keeps fun _ read =>
    (Sound.reader (nested_innerRules stop _) phrase _ _ read).measured

theorem keeps_nameOf (stop levels n offset : Nat) (name : String) (tokens : List Placed) :
    Keeps n (nameOf stop (innerRules stop levels) offset name tokens) :=
  (Counts.nameOf (within_innerRules stop levels n) offset name tokens).keeps fun _ read =>
    (faithful_of_name (nested_innerRules stop _) read).measured

theorem keeps_inside (stop levels n offset : Nat) {tokens : List Placed} {rule : Rules → Counting (Parsed tokens)}
    {rule' : Expr.Rules → Except SourceError (Parsed tokens)}
    (reads : ∀ rules rules', Agree (n + 1) rules rules' → Counts (n + 1) (rule rules) (rule' rules'))
    (measured : ∀ m rules, Sound m .condition rules.condition → Sound m .primary rules.primary →
      ∀ p, rule' rules = .ok p → p.depth = p.tree.depth ∧ p.depth ≤ greatestDepth) :
    Keeps n (nested offset (innerRules stop levels) rule) := by
  obtain ⟨-, refused⟩ | ⟨rules, known, counts⟩ := nested_cases (within_innerRules stop levels n) offset reads
  · exact refused.keeps nofun
  · obtain ⟨room, -, condition, primary⟩ := nested_innerRules stop _ rules known
    exact counts.keeps (measured room rules condition primary)

theorem keeps_nested (stop levels n offset : Nat) (tokens : List Placed) :
    Keeps n (nested offset (innerRules stop levels) (·.condition tokens)) ∧
      Keeps n (nested offset (innerRules stop levels) (·.primary tokens)) := by
  constructor
  · refine keeps_inside stop levels n offset (fun _ _ agree => agree.condition tokens) ?_
    exact fun _ _ condition _ p read => (condition _ _ read).measured
  · refine keeps_inside stop levels n offset (fun _ _ agree => agree.primary tokens) ?_
    exact fun _ _ _ primary p read => (primary _ _ read).measured

theorem parse_eq (text : String) : Counting.parse text = Expr.parse text := by
  unfold Counting.parse Expr.parse ofText
  rw [Nat.zero_add]
  dsimp only
  cases Expr.tokens 0 text.toList with
  | error e => rfl
  | ok placed => exact congrArg Prod.fst (counts_ofTokens _ placed)

end DriftField.Expr.Counting
