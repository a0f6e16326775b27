import Mathlib
import DriftField.Expr.Parser
import DriftField.Expr.Printer
/-!
The grammar of expressions as derivations over tokens. Whatever a reader gives is derived from the tokens that it
used up, within its limits.
-/

namespace DriftField

theorem exists_of_bind_eq_ok {ε α β : Type} {x : Except ε α} {f : α → Except ε β} {b : β}
    (h : x >>= f = .ok b) : ∃ a, x = .ok a ∧ f a = .ok b := by
  cases x with
  | error e => cases h
  | ok a => exact ⟨a, rfl, h⟩

theorem exists_of_map_eq_ok {ε α β : Type} {f : α → β} {x : Except ε α} {b : β} (h : f <$> x = .ok b) :
    ∃ a, x = .ok a ∧ f a = b := by
  cases x with
  | error e => cases h
  | ok a => exact ⟨a, rfl, Except.ok.inj h⟩

theorem toOption_eq_some_iff {ε α : Type} {x : Except ε α} {a : α} : x.toOption = some a ↔ x = .ok a := by
  cases x <;> simp [Except.toOption]

theorem toOption_bind {ε α β : Type} (x : Except ε α) (f : α → Except ε β) :
    (x >>= f).toOption = x.toOption.bind fun a => (f a).toOption := by
  cases x <;> rfl

end DriftField

namespace DriftField.Expr

inductive Rank where
  | equality
  | sum
  | product
  deriving DecidableEq

def Rank.operators : Rank → List Operator
  | .equality => [.eq]
  | .sum => [.add, .sub]
  | .product => [.mul, .div, .rem]

inductive Phrase where
  | condition
  | chain (r : Rank)
  | primary

def Rank.operand : Rank → Phrase
  | .equality => .chain .sum
  | .sum => .chain .product
  | .product => .primary

/-- Tokens that spell a tree as a phrase of a kind, with at most `n` parentheses, arguments and
negations open at one place. -/
inductive Spells : Nat → Phrase → List Token → Expr → Prop
  | equality (words : Spells n (.chain .equality) ts e) : Spells n .condition ts e
  | ifThen (condition : Spells n (.chain .equality) ts c)
      (yes : Spells n (.chain .equality) us a) (no : Spells n (.chain .equality) ws b) :
      Spells n .condition (ts ++ .mark .question :: us ++ .mark .colon :: ws) (.ifThen c a b)
  | operand (words : Spells n (Rank.operand r) ts e) : Spells n (.chain r) ts e
  | join (member : op ∈ Rank.operators r) (left : Spells n (.chain r) ts a)
      (right : Spells n r.operand us b) :
      Spells n (.chain r) (ts ++ .operator op :: us) (.binary op a b)
  | number : Spells n .primary [.number v] (.literal v)
  | negative : Spells n .primary [.operator .sub, .number v] (.literal (-v))
  | negation (words : Spells n .primary ts a) (unsigned : ∀ v, ts.head? ≠ some (.number v)) :
      Spells (n + 1) .primary (.operator .sub :: ts) (.binary .mul (.literal (-1.0)) a)
  | x : Spells n .primary [.name "x"] Expr.x
  | y : Spells n .primary [.name "y"] Expr.y
  | call (f : Unary) (argument : Spells n .condition ts a) :
      Spells (n + 1) .primary
        (.name f.name :: .mark .openParen :: ts ++ [.mark .closeParen]) (.call f a)
  | choose (f : Choice) (first : Spells n .condition ts a) (second : Spells n .condition us b) :
      Spells (n + 1) .primary
        (.name f.name :: .mark .openParen :: ts ++ .mark .comma :: us ++ [.mark .closeParen])
        (.choose f a b)
  | group (words : Spells n .condition ts e) :
      Spells (n + 1) .primary (.mark .openParen :: ts ++ [.mark .closeParen]) e

/-- The reader of a kind of phrase, `inner` being the rules inside it. -/
def readerOf (stop : Nat) (inner : Option Rules) : Phrase → Reader
  | .condition => (rulesOf stop inner).condition
  | .chain .equality =>
      chain Rank.equality.operators <| chain Rank.sum.operators <|
        chain Rank.product.operators <| primaryOf stop inner
  | .chain .sum =>
      chain Rank.sum.operators <| chain Rank.product.operators <| primaryOf stop inner
  | .chain .product => chain Rank.product.operators <| primaryOf stop inner
  | .primary => primaryOf stop inner

theorem readerOf_chain (stop : Nat) (inner : Option Rules) (r : Rank) :
    readerOf stop inner (.chain r) =
      chain r.operators (readerOf stop inner r.operand) := by
  cases r <;> rfl

theorem readerOf_condition (stop : Nat) (inner : Option Rules) :
    readerOf stop inner .condition =
      conditionOf stop (readerOf stop inner (.chain .equality)) := rfl

def innerRules (stop : Nat) : Nat → Option Rules
  | 0 => none
  | room + 1 => some (rulesAt stop room)

theorem rulesAt_eq (stop room : Nat) :
    rulesAt stop room = rulesOf stop (innerRules stop room) := by
  cases room <;> rfl

/-! The three ways in which a reader goes on: it joins operands, takes the branches of a conditional, or
passes a mark. -/

theorem extend_of_stop {operators : List Operator} {operand : Reader} {tokens : List Placed}
    (left : Parsed tokens)
    (stop : ∀ p ∈ left.rest.head?, ∀ op ∈ operators, p.token ≠ .operator op) :
    extend operators operand left = .ok left := by
  rw [extend]
  split
  · next offset op rest found =>
    rw [found] at stop
    rw [if_neg fun member => stop _ rfl op member rfl]
  · rfl

theorem Parsed.shorter_after {tokens rest : List Placed} {head : Placed} (left : Parsed tokens)
    (found : left.rest = head :: rest) (right : Parsed rest) :
    right.rest.length < tokens.length := by
  have before := left.shorter
  have after := right.shorter
  rw [found, List.length_cons] at before
  omega

theorem extend_of_operator {operators : List Operator} {operand : Reader} {tokens : List Placed}
    (left : Parsed tokens) {offset : Nat} {op : Operator} {rest : List Placed}
    (found : left.rest = ⟨offset, .operator op⟩ :: rest) (member : op ∈ operators) :
    extend operators operand left = operand rest >>= fun right =>
      if greatestDepth < 1 + max left.depth right.depth then .error ⟨offset, .tooDeep⟩
      else extend operators operand
        ⟨.binary op left.tree right.tree, 1 + max left.depth right.depth, right.rest,
          left.shorter_after found right⟩ := by
  obtain ⟨tree, depth, rest', shorter⟩ := left
  simp only at found
  subst found
  rw [extend]
  refine (if_pos member).trans ?_
  cases operand rest <;> rfl

theorem one_le_depth (e : Expr) : 1 ≤ e.depth := by
  cases e <;> simp only [depth] <;> omega

/-- What a reader gave is what the tokens that it used up spell, and is not too deep. -/
def Faithful (n : Nat) (phrase : Phrase) {tokens : List Placed} (p : Parsed tokens) : Prop :=
  ∃ used, tokens = used ++ p.rest ∧ Spells n phrase (used.map Placed.token) p.tree ∧
    p.depth = p.tree.depth ∧ p.depth ≤ greatestDepth

theorem Faithful.measured {n : Nat} {phrase : Phrase} {tokens : List Placed} {p : Parsed tokens}
    (faithful : Faithful n phrase p) : p.depth = p.tree.depth ∧ p.depth ≤ greatestDepth := by
  obtain ⟨used, -, -, measured⟩ := faithful
  exact measured

def Sound (n : Nat) (phrase : Phrase) (reader : Reader) : Prop :=
  ∀ (tokens : List Placed) (p : Parsed tokens), reader tokens = .ok p → Faithful n phrase p

theorem one_le_greatestDepth : 1 ≤ greatestDepth := by decide

theorem faithful_of_extend {r : Rank} {n : Nat} {operand : Reader} {tokens : List Placed}
    {left p : Parsed tokens} (sound : Sound n r.operand operand)
    (faithful : Faithful n (.chain r) left)
    (extended : extend r.operators operand left = .ok p) : Faithful n (.chain r) p := by
  -- Each operand that is joined leaves fewer tokens.
  induction size : left.rest.length using Nat.strongRecOn generalizing left with
  | ind size induction =>
      cases found : left.rest with
      | nil =>
          rw [extend_of_stop left (by simp [found])] at extended
          cases extended
          exact faithful
      | cons head rest =>
          obtain ⟨offset, token⟩ := head
          by_cases joins : ∃ op ∈ r.operators, token = .operator op
          · obtain ⟨op, member, rfl⟩ := joins
            rw [extend_of_operator left found member] at extended
            obtain ⟨right, operandRead, extended⟩ := exists_of_bind_eq_ok extended
            split at extended
            · cases extended
            · next shallow =>
              obtain ⟨before, leftTokens, leftWords, leftDepth, leftShallow⟩ := faithful
              obtain ⟨after, rightTokens, rightWords, rightDepth, rightShallow⟩ :=
                sound _ _ operandRead
              have shorter := right.shorter
              refine induction right.rest.length ?_ ?_ extended rfl
              · rw [← size, found, List.length_cons]
                omega
              · refine ⟨before ++ ⟨offset, .operator op⟩ :: after, ?_, ?_, ?_, ?_⟩
                · rw [found, rightTokens] at leftTokens
                  simpa using leftTokens
                · rw [List.map_append, List.map_cons]
                  exact .join member leftWords rightWords
                · simp only [depth, leftDepth, rightDepth]
                · simpa using shallow
          · rw [extend_of_stop left] at extended
            · cases extended
              exact faithful
            · intro p head op member same
              simp only [found, List.head?_cons, Option.mem_some_iff] at head
              subst head
              exact joins ⟨op, member, same⟩

theorem Sound.chain {r : Rank} {n : Nat} {operand : Reader} (sound : Sound n r.operand operand) :
    Sound n (.chain r) (chain r.operators operand) := by
  intro tokens p read
  unfold Expr.chain at read
  cases first : operand tokens with
  | error e => rw [first] at read; cases read
  | ok left =>
      rw [first] at read
      obtain ⟨used, consumed, words, depth, shallow⟩ := sound _ _ first
      exact faithful_of_extend sound ⟨used, consumed, .operand words, depth, shallow⟩ read

theorem expect_eq_ok {stop : Nat} {m : Mark} {tokens : List Placed}
    {after : { rest : List Placed // rest.length < tokens.length }}
    (read : expect stop m tokens = .ok after) :
    ∃ offset, tokens = ⟨offset, .mark m⟩ :: after.1 := by
  unfold expect at read
  split at read
  · next offset found rest =>
    split at read
    · next same =>
      subst same
      cases read
      exact ⟨offset, rfl⟩
    · cases read
  · cases read
  · cases read

theorem limited_eq_ok {tokens : List Placed} {offset : Nat} {p q : Parsed tokens}
    (read : limited offset p = .ok q) : p = q ∧ p.depth ≤ greatestDepth := by
  unfold limited at read
  split at read
  · cases read
  · next shallow =>
    cases read
    exact ⟨rfl, Nat.not_lt.mp shallow⟩

theorem Sound.condition {n stop : Nat} {equality : Reader}
    (sound : Sound n (.chain .equality) equality) :
    Sound n .condition (conditionOf stop equality) := by
  intro tokens p read
  unfold conditionOf at read
  obtain ⟨c, first, read⟩ := exists_of_bind_eq_ok read
  obtain ⟨used, consumed, words, depth, shallow⟩ := sound _ _ first
  split at read
  · next offset rest found =>
    obtain ⟨a, second, read⟩ := exists_of_bind_eq_ok read
    obtain ⟨after, colon, read⟩ := exists_of_bind_eq_ok read
    obtain ⟨b, third, read⟩ := exists_of_bind_eq_ok read
    obtain ⟨rfl, shallow'⟩ := limited_eq_ok read
    obtain ⟨yes, yesTokens, yesWords, yesDepth, -⟩ := sound _ _ second
    obtain ⟨no, noTokens, noWords, noDepth, -⟩ := sound _ _ third
    obtain ⟨place, mark⟩ := expect_eq_ok colon
    refine ⟨used ++ ⟨offset, .mark .question⟩ :: yes ++ ⟨place, .mark .colon⟩ :: no,
      ?_, ?_, ?_, shallow'⟩
    · rw [mark, noTokens] at yesTokens
      rw [found, yesTokens] at consumed
      simpa using consumed
    · simpa using Spells.ifThen words yesWords noWords
    · simp only [Expr.depth, depth, yesDepth, noDepth]
  · cases read
    exact ⟨used, consumed, .equality words, depth, shallow⟩

def Nested (n : Nat) (inner : Option Rules) : Prop :=
  ∀ rules, inner = some rules →
    ∃ m, n = m + 1 ∧ Sound m .condition rules.condition ∧ Sound m .primary rules.primary

theorem opened_eq_ok {offset : Nat} {inner : Option Rules} {rules : Rules}
    (h : opened offset inner = .ok rules) : inner = some rules := by
  cases inner with
  | none => cases h
  | some r => cases h; rfl

theorem faithful_of_call {n stop offset : Nat} {inner : Option Rules} {f : Unary}
    (nested : Nested n inner) {rest : List Placed} {p : Parsed rest}
    (read : callOf stop inner offset f rest = .ok p) :
    ∃ used, rest = used ++ p.rest ∧
      Spells n .primary (.name f.name :: used.map Placed.token) p.tree ∧
      p.depth = p.tree.depth ∧ p.depth ≤ greatestDepth := by
  unfold callOf at read
  obtain ⟨inside, opening, read⟩ := exists_of_bind_eq_ok read
  obtain ⟨rules, within, read⟩ := exists_of_bind_eq_ok read
  obtain ⟨a, argument, read⟩ := exists_of_bind_eq_ok read
  obtain ⟨after, closing, read⟩ := exists_of_bind_eq_ok read
  obtain ⟨rfl, shallow⟩ := limited_eq_ok read
  obtain ⟨m, rfl, sound, -⟩ := nested rules (opened_eq_ok within)
  obtain ⟨place, parenthesis⟩ := expect_eq_ok opening
  obtain ⟨place', parenthesis'⟩ := expect_eq_ok closing
  obtain ⟨used, consumed, words, depth, -⟩ := sound _ _ argument
  refine ⟨⟨place, .mark .openParen⟩ :: used ++ [⟨place', .mark .closeParen⟩], ?_, ?_, ?_, shallow⟩
  · rw [parenthesis'] at consumed
    rw [consumed] at parenthesis
    simpa using parenthesis
  · simpa using Spells.call f words
  · simp only [Expr.depth, depth]
    omega

theorem faithful_of_choose {n stop offset : Nat} {inner : Option Rules} {f : Choice}
    (nested : Nested n inner) {rest : List Placed} {p : Parsed rest}
    (read : chooseOf stop inner offset f rest = .ok p) :
    ∃ used, rest = used ++ p.rest ∧
      Spells n .primary (.name f.name :: used.map Placed.token) p.tree ∧
      p.depth = p.tree.depth ∧ p.depth ≤ greatestDepth := by
  unfold chooseOf at read
  obtain ⟨inside, opening, read⟩ := exists_of_bind_eq_ok read
  obtain ⟨rules, within, read⟩ := exists_of_bind_eq_ok read
  obtain ⟨a, first, read⟩ := exists_of_bind_eq_ok read
  obtain ⟨between, comma, read⟩ := exists_of_bind_eq_ok read
  obtain ⟨b, second, read⟩ := exists_of_bind_eq_ok read
  obtain ⟨after, closing, read⟩ := exists_of_bind_eq_ok read
  obtain ⟨rfl, shallow⟩ := limited_eq_ok read
  obtain ⟨m, rfl, sound, -⟩ := nested rules (opened_eq_ok within)
  obtain ⟨place, parenthesis⟩ := expect_eq_ok opening
  obtain ⟨place', separator⟩ := expect_eq_ok comma
  obtain ⟨place'', parenthesis'⟩ := expect_eq_ok closing
  obtain ⟨used, consumed, words, depth, -⟩ := sound _ _ first
  obtain ⟨used', consumed', words', depth', -⟩ := sound _ _ second
  refine ⟨⟨place, .mark .openParen⟩ :: used ++ ⟨place', .mark .comma⟩ :: used' ++
    [⟨place'', .mark .closeParen⟩], ?_, ?_, ?_, shallow⟩
  · rw [parenthesis'] at consumed'
    rw [separator, consumed'] at consumed
    rw [consumed] at parenthesis
    simpa using parenthesis
  · simpa using Spells.choose f words words'
  · simp only [Expr.depth, depth, depth']

theorem Unary.name_of_ofName? {name : String} {f : Unary} (h : Unary.ofName? name = some f) :
    f.name = name := by
  simpa using List.find?_some h

theorem Choice.name_of_ofName? {name : String} {f : Choice}
    (h : Choice.ofName? name = some f) : f.name = name := by
  simpa using List.find?_some h

theorem faithful_of_name {n stop offset : Nat} {inner : Option Rules} {name : String}
    (nested : Nested n inner) {rest : List Placed}
    {p : Parsed (⟨offset, .name name⟩ :: rest)}
    (read : nameOf stop inner offset name rest = .ok p) : Faithful n .primary p := by
  unfold nameOf at read
  simp only at read
  split at read
  · next same =>
    subst same
    cases read
    exact ⟨[⟨offset, .name "x"⟩], rfl, .x, rfl, one_le_greatestDepth⟩
  · split at read
    · next same =>
      subst same
      cases read
      exact ⟨[⟨offset, .name "y"⟩], rfl, .y, rfl, one_le_greatestDepth⟩
    · split at read
      · next f known =>
        cases called : callOf stop inner offset f rest with
        | error e => rw [called] at read; cases read
        | ok q =>
            rw [called] at read
            cases read
            obtain ⟨used, consumed, words, depth, shallow⟩ := faithful_of_call nested called
            rw [Unary.name_of_ofName? known] at words
            exact ⟨⟨offset, .name name⟩ :: used, congrArg _ consumed, words, depth, shallow⟩
      · next f unknown known =>
        cases called : chooseOf stop inner offset f rest with
        | error e => rw [called] at read; cases read
        | ok q =>
            rw [called] at read
            cases read
            obtain ⟨used, consumed, words, depth, shallow⟩ := faithful_of_choose nested called
            rw [Choice.name_of_ofName? known] at words
            exact ⟨⟨offset, .name name⟩ :: used, congrArg _ consumed, words, depth, shallow⟩
      · cases read

theorem Sound.primary {n stop : Nat} {inner : Option Rules} (nested : Nested n inner) :
    Sound n .primary (primaryOf stop inner) := by
  intro tokens p read
  unfold primaryOf at read
  split at read
  · cases read
  · cases read
    exact ⟨[⟨_, .number _⟩], rfl, .number, rfl, one_le_greatestDepth⟩
  · cases read
    exact ⟨[⟨_, .operator .sub⟩, ⟨_, .number _⟩], rfl, .negative, rfl, one_le_greatestDepth⟩
  · next offset rest unsigned =>
    obtain ⟨rules, within, read⟩ := exists_of_bind_eq_ok read
    obtain ⟨a, operand, read⟩ := exists_of_bind_eq_ok read
    obtain ⟨rfl, shallow⟩ := limited_eq_ok read
    obtain ⟨m, rfl, -, sound⟩ := nested rules (opened_eq_ok within)
    obtain ⟨used, consumed, words, depth, -⟩ := sound _ _ operand
    refine ⟨⟨offset, .operator .sub⟩ :: used, congrArg _ consumed, .negation words ?_, ?_, shallow⟩
    · intro v number
      cases used with
      | nil => cases number
      | cons head used =>
          obtain ⟨place, token⟩ := head
          cases number
          exact unsigned place v (used ++ a.rest) consumed
    · have deep := a.tree.one_le_depth
      simp only [Expr.depth, depth]
      omega
  · next offset rest =>
    obtain ⟨rules, within, read⟩ := exists_of_bind_eq_ok read
    obtain ⟨a, operand, read⟩ := exists_of_bind_eq_ok read
    obtain ⟨after, closing, read⟩ := exists_of_bind_eq_ok read
    cases read
    obtain ⟨m, rfl, sound, -⟩ := nested rules (opened_eq_ok within)
    obtain ⟨place, parenthesis⟩ := expect_eq_ok closing
    obtain ⟨used, consumed, words, depth, shallow⟩ := sound _ _ operand
    refine ⟨⟨offset, .mark .openParen⟩ :: used ++ [⟨place, .mark .closeParen⟩], ?_, ?_,
      depth, shallow⟩
    · rw [parenthesis] at consumed
      simpa using congrArg (List.cons ⟨offset, .mark .openParen⟩) consumed
    · simpa using Spells.group words
  · exact faithful_of_name nested read
  · cases read

theorem Sound.reader {n stop : Nat} {inner : Option Rules} (nested : Nested n inner)
    (phrase : Phrase) : Sound n phrase (readerOf stop inner phrase) := by
  have primary : Sound n .primary (readerOf stop inner .primary) := Sound.primary nested
  have product : Sound n (.chain .product) (readerOf stop inner (.chain .product)) :=
    Sound.chain primary
  have sum : Sound n (.chain .sum) (readerOf stop inner (.chain .sum)) := Sound.chain product
  have equality : Sound n (.chain .equality) (readerOf stop inner (.chain .equality)) :=
    Sound.chain sum
  match phrase with
  | .primary => exact primary
  | .chain .product => exact product
  | .chain .sum => exact sum
  | .chain .equality => exact equality
  | .condition => exact Sound.condition equality

theorem nested_innerRules (stop room : Nat) : Nested room (innerRules stop room) := by
  induction room with
  | zero =>
      intro rules within
      cases within
  | succ room induction =>
      intro rules within
      cases within
      refine ⟨room, rfl, ?_⟩
      rw [rulesAt_eq]
      exact ⟨Sound.reader induction .condition, Sound.reader induction .primary⟩

end DriftField.Expr
