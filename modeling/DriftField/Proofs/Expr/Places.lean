import Mathlib
import DriftField.Proofs.Expr.Lexemes
/-!
The places that errors tell. The readers take tokens at any places alike, so an error tells the place of a token or the
end of the text, and with the text somewhere else it is the same error there.
-/

namespace DriftField

def SourceError.move (f : Nat → Nat) (error : SourceError) : SourceError := ⟨f error.offset, error.cause⟩

namespace Expr

open Text (byteLength Boundary)

def Placed.move (f : Nat → Nat) (p : Placed) : Placed := ⟨f p.offset, p.token⟩

structure Parsed.Moved (f : Nat → Nat) {ts us : List Placed} (p : Parsed ts) (q : Parsed us) : Prop where
  tree : q.tree = p.tree
  depth : q.depth = p.depth
  rest : q.rest = p.rest.map (Placed.move f)

inductive Follows (f : Nat → Nat) {ts us : List Placed} : Except SourceError (Parsed ts) → Except SourceError (Parsed us) → Prop
  | read {p : Parsed ts} {q : Parsed us} (moved : p.Moved f q) : Follows f (.ok p) (.ok q)
  | refused (offset : Nat) {cause : SourceCause} (within : cause.isOfLines = false) :
      Follows f (.error ⟨offset, cause⟩) (.error ⟨f offset, cause⟩)

def Natural (f : Nat → Nat) (reader reader' : Reader) : Prop :=
  ∀ tokens, Follows f (reader tokens) (reader' (tokens.map (Placed.move f)))

variable {f : Nat → Nat} {ts us ts' us' : List Placed}

/-! ### Steps of readers -/

theorem Follows.bind {x : Except SourceError (Parsed ts)} {y : Except SourceError (Parsed us)}
    {next : Parsed ts → Except SourceError (Parsed ts')} {next' : Parsed us → Except SourceError (Parsed us')}
    (first : Follows f x y) (later : ∀ p q, p.Moved f q → Follows f (next p) (next' q)) :
    Follows f (x >>= next) (y >>= next') := by
  cases first with
  | read moved => exact later _ _ moved
  | refused offset within => exact .refused offset within

theorem expect_mark (stop offset : Nat) (m : Mark) (rest : List Placed) :
    expect stop m (⟨offset, .mark m⟩ :: rest) = .ok ⟨rest, Nat.lt_succ_self _⟩ := if_pos rfl

theorem expect_of_ne {stop offset : Nat} {m : Mark} {t : Token} (other : t ≠ .mark m) (rest : List Placed) :
    expect stop m (⟨offset, t⟩ :: rest) = .error ⟨offset, .missing m.spelling⟩ := by
  cases t with
  | mark found => exact if_neg fun same => other (congrArg Token.mark same)
  | _ => rfl

theorem Follows.expect {stop : Nat} {m : Mark}
    {next : { rest : List Placed // rest.length < ts.length } → Except SourceError (Parsed ts')}
    {next' : { rest : List Placed // rest.length < us.length } → Except SourceError (Parsed us')}
    (moved : us = ts.map (Placed.move f))
    (later : ∀ rest shorter shorter', Follows f (next ⟨rest, shorter⟩) (next' ⟨rest.map (Placed.move f), shorter'⟩)) :
    Follows f (expect stop m ts >>= next) (expect (f stop) m us >>= next') := by
  subst moved
  cases ts with
  | nil => exact .refused stop rfl
  | cons head rest =>
      obtain ⟨offset, token⟩ := head
      by_cases found : token = .mark m
      · subst found
        change Follows f _ (Expr.expect (f stop) m (⟨f offset, .mark m⟩ :: rest.map (Placed.move f)) >>= next')
        rw [expect_mark, expect_mark]
        exact later rest _ _
      · change Follows f _ (Expr.expect (f stop) m (⟨f offset, token⟩ :: rest.map (Placed.move f)) >>= next')
        rw [expect_of_ne found, expect_of_ne found]
        exact .refused offset rfl

theorem Follows.limited (offset : Nat) {p : Parsed ts} {q : Parsed us} (moved : p.Moved f q) :
    Follows f (limited offset p) (limited (f offset) q) := by
  unfold Expr.limited
  rw [moved.depth]
  split
  · exact .refused offset rfl
  · exact .read moved

theorem Follows.extend {operators : List Operator} {operand operand' : Reader} (natural : Natural f operand operand')
    {left : Parsed ts} {left' : Parsed us} (moved : left.Moved f left') :
    Follows f (extend operators operand left) (extend operators operand' left') := by
  induction size : left.rest.length using Nat.strongRecOn generalizing left left' with
  | ind size induction =>
      subst size
      by_cases joins : ∃ offset op rest, left.rest = ⟨offset, .operator op⟩ :: rest ∧ op ∈ operators
      · obtain ⟨offset, op, rest, found, member⟩ := joins
        have found' : left'.rest = ⟨f offset, .operator op⟩ :: rest.map (Placed.move f) := by
          rw [moved.rest, found]
          rfl
        rw [extend_of_operator left found member, extend_of_operator left' found' member]
        refine (natural rest).bind fun right right' moved' => ?_
        rw [moved.depth, moved'.depth]
        split
        · exact .refused offset rfl
        · have shorter := right.shorter
          refine induction right.rest.length ?_ ⟨?_, rfl, moved'.rest⟩ rfl
          · rw [found, List.length_cons]
            omega
          · rw [moved.tree, moved'.tree]
      · have stop : ∀ p ∈ left.rest.head?, ∀ op ∈ operators, p.token ≠ .operator op := by
          rintro ⟨offset, token⟩ head op member rfl
          obtain ⟨rest, found⟩ := List.head?_eq_some_iff.mp head
          exact joins ⟨offset, op, rest, found, member⟩
        rw [extend_of_stop left stop, extend_of_stop left']
        · exact .read moved
        · rw [moved.rest, List.head?_map]
          intro p head
          obtain ⟨before, there, rfl⟩ := Option.map_eq_some_iff.mp head
          exact stop before there

theorem Natural.chain {operators : List Operator} {operand operand' : Reader} (natural : Natural f operand operand') :
    Natural f (chain operators operand) (chain operators operand') :=
  fun tokens => (natural tokens).bind fun _ _ moved => .extend natural moved

theorem startOf_move (f : Nat → Nat) (stop : Nat) (tokens : List Placed) :
    startOf (f stop) (tokens.map (Placed.move f)) = f (startOf stop tokens) := by
  cases tokens <;> rfl

theorem Natural.conditionOf (stop : Nat) {equality equality' : Reader} (natural : Natural f equality equality') :
    Natural f (conditionOf stop equality) (conditionOf (f stop) equality') := by
  intro tokens
  refine (natural tokens).bind fun ⟨tree, depth, rest, shorter⟩ ⟨tree', depth', rest', shorter'⟩ moved => ?_
  obtain ⟨sameTree, sameDepth, sameRest⟩ := moved
  dsimp only at sameTree sameDepth sameRest
  subst sameTree sameDepth sameRest
  cases rest with
  | nil => exact .read ⟨rfl, rfl, rfl⟩
  | cons head rest =>
      obtain ⟨offset, token⟩ := head
      cases token with
      | mark m =>
          cases m with
          | question =>
              refine (natural rest).bind fun a a' moved => ?_
              refine .expect moved.rest fun between _ _ => ?_
              refine (natural between).bind fun b b' moved' => ?_
              rw [startOf_move]
              refine .limited _ ⟨?_, ?_, moved'.rest⟩
              · rw [moved.tree, moved'.tree]
              · rw [moved.depth, moved'.depth]
          | _ => exact .read ⟨rfl, rfl, rfl⟩
      | _ => exact .read ⟨rfl, rfl, rfl⟩

/-! ### The rules -/

structure Rules.Natural (f : Nat → Nat) (rules rules' : Rules) : Prop where
  condition : Expr.Natural f rules.condition rules'.condition
  primary : Expr.Natural f rules.primary rules'.primary

section
variable (stop : Nat) {inner inner' : Option Rules} (within : Option.Rel (Rules.Natural f) inner inner')
include within

theorem Follows.opened (offset : Nat) {next : Rules → Except SourceError (Parsed ts)}
    {next' : Rules → Except SourceError (Parsed us)}
    (later : ∀ rules rules', rules.Natural f rules' → Follows f (next rules) (next' rules')) :
    Follows f (opened offset inner >>= next) (opened (f offset) inner' >>= next') := by
  cases within with
  | none => exact .refused offset rfl
  | some natural => exact later _ _ natural

theorem Natural.callOf (offset : Nat) (g : Unary) :
    Natural f (callOf stop inner offset g) (callOf (f stop) inner' (f offset) g) := by
  intro tokens
  refine .expect rfl fun inside _ _ => ?_
  refine .opened within offset fun rules rules' natural => ?_
  refine (natural.condition inside).bind fun a a' moved => ?_
  refine .expect moved.rest fun after _ _ => ?_
  refine .limited offset ⟨?_, ?_, rfl⟩
  · rw [moved.tree]
  · rw [moved.depth]

theorem Natural.chooseOf (offset : Nat) (g : Choice) :
    Natural f (chooseOf stop inner offset g) (chooseOf (f stop) inner' (f offset) g) := by
  intro tokens
  refine .expect rfl fun inside _ _ => ?_
  refine .opened within offset fun rules rules' natural => ?_
  refine (natural.condition inside).bind fun a a' moved => ?_
  refine .expect moved.rest fun between _ _ => ?_
  refine (natural.condition between).bind fun b b' moved' => ?_
  refine .expect moved'.rest fun after _ _ => ?_
  refine .limited offset ⟨?_, ?_, rfl⟩
  · rw [moved.tree, moved'.tree]
  · rw [moved.depth, moved'.depth]

omit within in
theorem Follows.map {x : Except SourceError (Parsed ts)} {y : Except SourceError (Parsed us)} (follows : Follows f x y)
    {next : Parsed ts → Parsed ts'} {next' : Parsed us → Parsed us'}
    (moved : ∀ p q, p.Moved f q → (next p).Moved f (next' q)) : Follows f (next <$> x) (next' <$> y) := by
  cases follows with
  | read before => exact .read (moved _ _ before)
  | refused offset within => exact .refused offset within

theorem Follows.nameOf (offset : Nat) (name : String) (tokens : List Placed) :
    Follows f (nameOf stop inner offset name tokens)
      (nameOf (f stop) inner' (f offset) name (tokens.map (Placed.move f))) := by
  unfold Expr.nameOf
  dsimp only
  split
  · exact .read ⟨rfl, rfl, rfl⟩
  split
  · exact .read ⟨rfl, rfl, rfl⟩
  cases Unary.ofName? name with
  | some g => exact (Natural.callOf stop within offset g tokens).map fun p q moved => ⟨moved.tree, moved.depth, moved.rest⟩
  | none =>
      cases Choice.ofName? name with
      | some g =>
          exact (Natural.chooseOf stop within offset g tokens).map fun p q moved => ⟨moved.tree, moved.depth, moved.rest⟩
      | none => exact .refused offset rfl

theorem Natural.primaryOf : Natural f (primaryOf stop inner) (primaryOf (f stop) inner') := by
  intro tokens
  cases tokens with
  | nil => exact .refused stop rfl
  | cons head rest =>
      obtain ⟨offset, token⟩ := head
      cases token with
      | number v => exact .read ⟨rfl, rfl, rfl⟩
      | name s => exact .nameOf stop within offset s rest
      | mark m =>
          cases m with
          | openParen =>
              refine .opened within offset fun rules rules' natural => ?_
              refine (natural.condition rest).bind fun a a' moved => ?_
              refine .expect moved.rest fun after _ _ => ?_
              exact .read ⟨moved.tree, moved.depth, rfl⟩
          | _ => exact .refused offset rfl
      | operator op =>
          cases op with
          | sub =>
              by_cases signed : ∃ place v later, rest = ⟨place, .number v⟩ :: later
              · obtain ⟨place, v, later, rfl⟩ := signed
                exact .read ⟨rfl, rfl, rfl⟩
              have unsigned : ∀ p ∈ rest.head?, ∀ v, p.token ≠ .number v := by
                rintro ⟨place, token⟩ first v rfl
                obtain ⟨later, same⟩ := List.head?_eq_some_iff.mp first
                exact signed ⟨place, v, later, same⟩
              have unsigned' : ∀ p ∈ (rest.map (Placed.move f)).head?, ∀ v, p.token ≠ .number v := by
                rw [List.head?_map]
                intro p first
                obtain ⟨before, there, rfl⟩ := Option.map_eq_some_iff.mp first
                exact unsigned before there
              rw [primaryOf_sub unsigned, List.map_cons, Placed.move, primaryOf_sub unsigned']
              refine .opened within offset fun rules rules' natural => ?_
              refine (natural.primary rest).bind fun a a' moved => ?_
              refine .limited offset ⟨?_, ?_, moved.rest⟩
              · rw [moved.tree]
              · rw [moved.depth]
          | _ => exact .refused offset rfl

theorem Natural.readerOf (phrase : Phrase) :
    Natural f (readerOf stop inner phrase) (readerOf (f stop) inner' phrase) := by
  have primary : Natural f (Expr.primaryOf stop inner) (Expr.primaryOf (f stop) inner') := .primaryOf stop within
  match phrase with
  | .primary => exact primary
  | .chain .product => exact primary.chain
  | .chain .sum => exact primary.chain.chain
  | .chain .equality => exact primary.chain.chain.chain
  | .condition => exact primary.chain.chain.chain.conditionOf stop

end

theorem natural_rulesAt (f : Nat → Nat) (stop room : Nat) : (rulesAt stop room).Natural f (rulesAt (f stop) room) := by
  have each {inner inner' : Option Rules} (within : Option.Rel (Rules.Natural f) inner inner') :
      (rulesOf stop inner).Natural f (rulesOf (f stop) inner') :=
    ⟨.readerOf stop within .condition, .readerOf stop within .primary⟩
  induction room with
  | zero => exact each .none
  | succ room induction => exact each (.some induction)

/-! ### Whole texts -/

/-- An expression is read of tokens at any places; where they are refused, the error is at the place that it is at. -/
theorem ofTokens_cases (f : Nat → Nat) (stop : Nat) (tokens : List Placed) :
    (∃ e, ofTokens stop tokens = .ok e ∧ ofTokens (f stop) (tokens.map (Placed.move f)) = .ok e) ∨
      ∃ offset cause, cause.isOfLines = false ∧ ofTokens stop tokens = .error ⟨offset, cause⟩ ∧
        ofTokens (f stop) (tokens.map (Placed.move f)) = .error ⟨f offset, cause⟩ := by
  have follows := (natural_rulesAt f stop greatestDepth).condition tokens
  unfold ofTokens
  generalize (rulesAt stop greatestDepth).condition tokens = result at follows
  generalize (rulesAt (f stop) greatestDepth).condition (tokens.map (Placed.move f)) = result' at follows
  cases follows with
  | refused offset within => exact .inr ⟨offset, _, within, rfl, rfl⟩
  | @read p q moved =>
      obtain ⟨tree, depth, rest, shorter⟩ := p
      obtain ⟨tree', depth', rest', shorter'⟩ := q
      obtain ⟨sameTree, sameDepth, sameRest⟩ := moved
      dsimp only at sameTree sameDepth sameRest
      subst sameTree sameDepth sameRest
      cases rest with
      | nil => exact .inl ⟨tree', rfl, rfl⟩
      | cons extra rest => exact .inr ⟨extra.offset, .trailingText, rfl, rfl, rfl⟩

theorem ofTokens_move (f : Nat → Nat) (stop : Nat) (tokens : List Placed) :
    ofTokens (f stop) (tokens.map (Placed.move f)) = (ofTokens stop tokens).mapError (SourceError.move f) := by
  obtain ⟨e, read, read'⟩ | ⟨offset, cause, -, refused, refused'⟩ := ofTokens_cases f stop tokens
  · rw [read, read']
    rfl
  · rw [refused, refused']
    rfl

theorem isOfLines_of_ofTokens {stop : Nat} {tokens : List Placed} {error : SourceError}
    (refused : ofTokens stop tokens = .error error) : error.cause.isOfLines = false := by
  obtain ⟨e, read, -⟩ | ⟨offset, cause, within, refused', -⟩ := ofTokens_cases id stop tokens
  · rw [read] at refused
    cases refused
  · rw [refused'] at refused
    cases refused
    exact within

/-- Errors are at the tokens or at the end. -/
theorem ofTokens_offset {stop : Nat} {tokens : List Placed} {error : SourceError}
    (refused : ofTokens stop tokens = .error error) : error.offset = stop ∨ ∃ p ∈ tokens, p.offset = error.offset := by
  classical
  -- Nothing changes if every other place is brought to the end.
  let told (place : Nat) : Prop := ∃ p ∈ tokens, p.offset = place
  let f (place : Nat) : Nat := if told place then place else stop
  have stays : f stop = stop := ite_self stop
  have stay : tokens.map (Placed.move f) = tokens := by
    refine (List.map_congr_left fun p member => ?_).trans (List.map_id _)
    have here : told p.offset := ⟨p, member, rfl⟩
    simp only [Placed.move, f, here, ↓reduceIte, id_eq]
  have same := ofTokens_move f stop tokens
  rw [stays, stay, refused] at same
  have fixed : error.offset = f error.offset := congrArg SourceError.offset (Except.error.inj same)
  by_cases here : told error.offset
  · exact .inr here
  · rw [fixed]
    exact .inl (if_neg here)

theorem tokens_add (distance offset : Nat) (cs : List Char) :
    tokens (distance + offset) cs =
      ((tokens offset cs).map (List.map (Placed.move (distance + ·)))).mapError (SourceError.move (distance + ·)) := by
  induction size : cs.length using Nat.strongRecOn generalizing cs offset with
  | ind size induction =>
      subst size
      cases start cs with
      | done read =>
          rw [read, read]
          rfl
      | refused cause read =>
          rw [read, read]
          rfl
      | gap shorter read => rw [read, read, Nat.add_assoc, induction _ shorter _ _ rfl]
      | token rest t size shorter finite read =>
          rw [read, read, Nat.add_assoc, induction _ shorter _ _ rfl]
          cases tokens (offset + size) rest <;> rfl

/-- What a text is read as shows nothing of where it starts, and an error is found as far from there. -/
theorem ofText_eq (offset : Nat) (cs : List Char) :
    ofText offset cs = (ofText 0 cs).mapError (SourceError.move (offset + ·)) := by
  have placed := tokens_add offset 0 cs
  rw [Nat.add_zero] at placed
  unfold ofText
  rw [placed, Nat.zero_add]
  cases tokens 0 cs with
  | error error => rfl
  | ok placed => exact ofTokens_move (offset + ·) (byteLength cs) placed

theorem ofText_error {offset : Nat} {cs : List Char} {error : SourceError} (refused : ofText offset cs = .error error) :
    Boundary offset cs error.offset ∧ error.cause.isOfLines = false := by
  have splits := split offset cs
  unfold ofText at refused
  generalize tokens offset cs = result at refused splits
  cases result with
  | error error' =>
      cases refused
      exact ⟨splits.boundary rfl, splits.isOfLines_error⟩
  | ok placed =>
      refine ⟨?_, isOfLines_of_ofTokens refused⟩
      rcases ofTokens_offset refused with stop | there
      · rw [stop]
        exact .last offset cs
      · exact splits.boundary there

end Expr

end DriftField
