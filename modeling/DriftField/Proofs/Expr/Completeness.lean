import Mathlib
import DriftField.Proofs.Expr.Grammar

namespace DriftField.Expr

def Rank.strength : Rank → Nat
  | .equality => 1
  | .sum => 2
  | .product => 3

theorem Rank.mem_operators {r : Rank} {op : Operator} :
    op ∈ r.operators ↔ op.strength = r.strength := by
  cases r <;> cases op <;> decide

def WeakerThan (least : Nat) (rest : List Placed) : Prop :=
  ∀ p ∈ rest.head?, ∀ op, p.token = .operator op → op.strength < least

/-- The reader of a phrase does not take what comes next into the phrase; that of a chain may still join
it to the chain. -/
def Phrase.Ends : Phrase → List Placed → Prop
  | .condition, rest => WeakerThan 1 rest ∧ ∀ p ∈ rest.head?, p.token ≠ .mark .question
  | .chain r, rest => WeakerThan (r.strength + 1) rest
  | .primary, _ => True

def Phrase.resume (stop : Nat) (inner : Option Rules) {tokens : List Placed} :
    Phrase → Parsed tokens → Except SourceError (Parsed tokens)
  | .chain r, left => extend r.operators (readerOf stop inner r.operand) left
  | _, left => .ok left

theorem extend_of_weaker {r : Rank} {operand : Reader} {tokens : List Placed}
    {left : Parsed tokens} (weaker : WeakerThan r.strength left.rest) :
    extend r.operators operand left = .ok left := by
  apply extend_of_stop
  intro p head op member joins
  have weak := weaker p head op joins
  rw [Rank.mem_operators.mp member] at weak
  exact Nat.lt_irrefl _ weak

theorem resume_operand {stop : Nat} {inner : Option Rules} {r : Rank} {tokens : List Placed}
    {left : Parsed tokens} (ends : (Phrase.chain r).Ends left.rest) :
    r.operand.resume stop inner left = .ok left := by
  cases r with
  | equality => exact extend_of_weaker ends
  | sum => exact extend_of_weaker ends
  | product => rfl

theorem Rank.ends_operand {r : Rank} {rest : List Placed} (ends : (Phrase.chain r).Ends rest) :
    r.operand.Ends rest := by
  cases r with
  | equality =>
      intro p head op joins
      exact Nat.lt_succ_of_lt (ends p head op joins)
  | sum =>
      intro p head op joins
      exact Nat.lt_succ_of_lt (ends p head op joins)
  | product => trivial

theorem WeakerThan.mark {least offset : Nat} {m : Mark} {rest : List Placed} :
    WeakerThan least (⟨offset, .mark m⟩ :: rest) := by
  intro p head op joins
  cases head
  cases joins

structure Parsed.Is {tokens : List Placed} (p : Parsed tokens) (e : Expr) (rest : List Placed) :
    Prop where
  tree : p.tree = e
  depth : p.depth = e.depth
  rest : p.rest = rest

/-- A tree is within the limits where `room` more may be opened and its tokens open `n`. -/
structure Fits (n room : Nat) (e : Expr) : Prop where
  open_le : n ≤ room
  depth_le : e.depth ≤ greatestDepth

theorem Fits.part {n room : Nat} {e a : Expr} (fits : Fits n room e)
    (shallower : a.depth ≤ e.depth) : Fits n room a :=
  ⟨fits.open_le, Nat.le_trans shallower fits.depth_le⟩

theorem Fits.inside {n room : Nat} {e a : Expr} (fits : Fits (n + 1) (room + 1) e)
    (shallower : a.depth ≤ e.depth) : Fits n room a :=
  ⟨Nat.le_of_succ_le_succ fits.open_le, Nat.le_trans shallower fits.depth_le⟩

/-- Either a reader gets through a phrase, and goes on from there, or the phrase does not fit. -/
inductive Passes {tokens : List Placed} (read : Except SourceError (Parsed tokens))
    (resume : Parsed tokens → Except SourceError (Parsed tokens)) (e : Expr)
    (rest : List Placed) (fits : Prop) : Prop
  | passed (p : Parsed tokens) (is : p.Is e rest) (result : read = resume p)
  | refused (error : SourceError) (result : read = .error error) (unfit : ¬ fits)

theorem conditionOf_of_stop {stop : Nat} {equality : Reader} {tokens : List Placed}
    {c : Parsed tokens} (first : equality tokens = .ok c)
    (stops : ∀ p ∈ c.rest.head?, p.token ≠ .mark .question) :
    conditionOf stop equality tokens = .ok c := by
  unfold conditionOf
  rw [first]
  obtain ⟨tree, depth, rest, shorter⟩ := c
  cases rest with
  | nil => rfl
  | cons head rest =>
      obtain ⟨offset, token⟩ := head
      cases token with
      | mark m =>
          cases m with
          | question => exact absurd rfl (stops _ rfl)
          | _ => rfl
      | _ => rfl

theorem conditionOf_of_question {stop : Nat} {equality : Reader} {tokens : List Placed}
    {c : Parsed tokens} {offset : Nat} {rest : List Placed}
    (first : equality tokens = .ok c)
    (found : c.rest = ⟨offset, .mark .question⟩ :: rest) :
    conditionOf stop equality tokens = (do
      let a ← equality rest
      let colon ← expect stop .colon a.rest
      let b ← equality colon.1
      limited (startOf stop tokens)
        ⟨.ifThen c.tree a.tree b.tree, 1 + max (max c.depth a.depth) b.depth, b.rest,
          Nat.lt_trans b.shorter (Nat.lt_trans colon.2 (c.shorter_after found a))⟩) := by
  unfold conditionOf
  rw [first]
  obtain ⟨tree, depth, rest', shorter⟩ := c
  simp only at found
  subst found
  rfl

theorem conditionOf_of_error {stop : Nat} {equality : Reader} {tokens : List Placed}
    {error : SourceError} (first : equality tokens = .error error) :
    conditionOf stop equality tokens = .error error := by
  unfold conditionOf
  rw [first]
  rfl

theorem Passes.finish {tokens : List Placed} {read : Except SourceError (Parsed tokens)}
    {resume : Parsed tokens → Except SourceError (Parsed tokens)} {e : Expr}
    {rest : List Placed} {fits : Prop} (passes : Passes read resume e rest fits)
    (ends : ∀ p : Parsed tokens, p.rest = rest → resume p = .ok p) :
    Passes read .ok e rest fits := by
  cases passes with
  | passed p is result => exact .passed p is (result.trans (ends p is.rest))
  | refused error result unfit => exact .refused error result unfit

def Completes (n : Nat) (phrase : Phrase) (ts : List Token) (e : Expr) : Prop :=
  ∀ (stop room : Nat) (placed rest : List Placed), placed.map Placed.token = ts →
    phrase.Ends rest →
      Passes (readerOf stop (innerRules stop room) phrase (placed ++ rest))
        (phrase.resume stop (innerRules stop room)) e rest
        (Fits n room e)

theorem exists_placed_append {placed : List Placed} {ts us : List Token}
    (spelled : placed.map Placed.token = ts ++ us) :
    ∃ before after, placed = before ++ after ∧ before.map Placed.token = ts ∧
      after.map Placed.token = us := by
  obtain ⟨before, after, rfl, first, second⟩ := List.map_eq_append_iff.mp spelled
  exact ⟨before, after, rfl, first, second⟩

theorem exists_placed_cons {placed : List Placed} {t : Token} {ts : List Token}
    (spelled : placed.map Placed.token = t :: ts) :
    ∃ offset after, placed = ⟨offset, t⟩ :: after ∧ after.map Placed.token = ts := by
  obtain ⟨⟨offset, token⟩, after, rfl, same, others⟩ := List.map_eq_cons_iff.mp spelled
  cases same
  exact ⟨offset, after, rfl, others⟩

theorem exists_placed_singleton {placed : List Placed} {t : Token}
    (spelled : placed.map Placed.token = [t]) : ∃ offset, placed = [⟨offset, t⟩] := by
  obtain ⟨offset, after, rfl, others⟩ := exists_placed_cons spelled
  exact ⟨offset, congrArg _ (List.map_eq_nil_iff.mp others)⟩

theorem WeakerThan.operator {r : Rank} {op : Operator} {offset : Nat} {rest : List Placed}
    (member : op ∈ r.operators) :
    WeakerThan (r.strength + 1) (⟨offset, .operator op⟩ :: rest) := by
  intro p head op joins
  cases head
  cases joins
  rw [Rank.mem_operators.mp member]
  exact Nat.lt_succ_self _

theorem Completes.operand {n : Nat} {r : Rank} {ts : List Token} {e : Expr}
    (complete : Completes n r.operand ts e) : Completes n (.chain r) ts e := by
  intro stop room placed rest spelled ends
  rw [readerOf_chain]
  have finished := (complete stop room placed rest spelled (Rank.ends_operand ends)).finish
    fun p same => resume_operand (by rwa [same])
  unfold chain
  cases finished with
  | passed p is result => exact .passed p is (by rw [result]; rfl)
  | refused error result unfit => exact .refused error (by rw [result]; rfl) unfit

theorem Phrase.Ends.equality {rest : List Placed} (ends : Phrase.condition.Ends rest) :
    (Phrase.chain .equality).Ends rest := by
  intro p head op joins
  exact Nat.lt_succ_of_lt (ends.1 p head op joins)

theorem Completes.equality {n : Nat} {ts : List Token} {e : Expr}
    (complete : Completes n (.chain .equality) ts e) : Completes n .condition ts e := by
  intro stop room placed rest spelled ends
  rw [readerOf_condition]
  have finished := (complete stop room placed rest spelled ends.equality).finish
    fun p same => extend_of_weaker (by rw [same]; exact ends.1)
  cases finished with
  | passed p is result =>
      exact .passed p is (conditionOf_of_stop result (by rw [is.rest]; exact ends.2))
  | refused error result unfit =>
      exact .refused error (conditionOf_of_error result) unfit

theorem Passes.limited {tokens : List Placed} {offset : Nat} {p : Parsed tokens} {e : Expr}
    {rest : List Placed} {n room : Nat} (is : p.Is e rest) :
    Passes (limited offset p) .ok e rest (Fits n room e) := by
  unfold Expr.limited
  split
  · next deep =>
    rw [is.depth] at deep
    exact .refused _ rfl fun fits => Nat.not_le.mpr deep fits.depth_le
  · exact .passed p is rfl

/-- A reader goes on with what it has read, or refuses what does not fit. -/
theorem Passes.bind {tokens inside : List Placed} {read : Except SourceError (Parsed inside)}
    {next : Parsed inside → Except SourceError (Parsed tokens)}
    {resume : Parsed tokens → Except SourceError (Parsed tokens)} {a e : Expr}
    {rest after : List Placed} {fits fits' : Prop} (passes : Passes read .ok a rest fits)
    (covers : fits' → fits)
    (goesOn : ∀ p : Parsed inside, p.Is a rest → Passes (next p) resume e after fits') :
    Passes (read >>= next) resume e after fits' := by
  cases passes with
  | passed p is result =>
      rw [result]
      exact goesOn p is
  | refused error result unfit =>
      rw [result]
      exact .refused error rfl fun fits => unfit (covers fits)

theorem Passes.expect {tokens inside : List Placed} {stop offset : Nat} {m : Mark}
    {next : { rest : List Placed // rest.length < inside.length } →
      Except SourceError (Parsed tokens)}
    {resume : Parsed tokens → Except SourceError (Parsed tokens)} {e : Expr}
    {rest after : List Placed} {fits : Prop}
    (found : inside = ⟨offset, .mark m⟩ :: rest)
    (goesOn : ∀ shorter, Passes (next ⟨rest, shorter⟩) resume e after fits) :
    Passes (Expr.expect stop m inside >>= next) resume e after fits := by
  subst found
  have passed : Expr.expect stop m (⟨offset, .mark m⟩ :: rest) = .ok ⟨rest, by simp⟩ :=
    if_pos rfl
  rw [passed]
  exact goesOn _

theorem Passes.opened {tokens : List Placed} {stop offset n room : Nat}
    {next : Rules → Except SourceError (Parsed tokens)}
    {resume : Parsed tokens → Except SourceError (Parsed tokens)} {e : Expr}
    {after : List Placed}
    (goesOn : ∀ inside, room = inside + 1 →
      Passes (next (rulesAt stop inside)) resume e after (Fits (n + 1) room e)) :
    Passes (Expr.opened offset (innerRules stop room) >>= next) resume e after
      (Fits (n + 1) room e) := by
  cases room with
  | zero => exact .refused _ rfl fun fits => Nat.not_succ_le_zero _ fits.open_le
  | succ inside => exact goesOn inside rfl

theorem Completes.join {n : Nat} {r : Rank} {op : Operator} {ts us : List Token} {a b : Expr}
    (member : op ∈ r.operators) (left : Completes n (.chain r) ts a)
    (right : Completes n r.operand us b) :
    Completes n (.chain r) (ts ++ .operator op :: us) (.binary op a b) := by
  intro stop room placed rest spelled ends
  obtain ⟨before, joined, rfl, first, spelled⟩ := exists_placed_append spelled
  obtain ⟨offset, after, rfl, second⟩ := exists_placed_cons spelled
  rw [List.append_assoc, List.cons_append]
  cases left stop room before (⟨offset, .operator op⟩ :: (after ++ rest)) first
      (WeakerThan.operator member) with
  | refused error result unfit =>
      exact .refused error result fun fits => unfit (fits.part (by simp only [depth]; omega))
  | passed p is result =>
      have second := (right stop room after rest second (Rank.ends_operand ends)).finish
        fun p same => resume_operand (by rwa [same])
      simp only [Phrase.resume] at result
      rw [result, extend_of_operator p is.rest member]
      refine second.bind (fun fits => fits.part (by simp only [depth]; omega)) fun q is' => ?_
      split
      · next deep =>
        rw [is.depth, is'.depth] at deep
        exact .refused _ rfl fun fits => Nat.not_le.mpr deep fits.depth_le
      · exact .passed _ ⟨by rw [is.tree, is'.tree], by simp only [is.depth, is'.depth, depth],
          is'.rest⟩ rfl

theorem Completes.ifThen {n : Nat} {ts us ws : List Token} {c a b : Expr}
    (condition : Completes n (.chain .equality) ts c)
    (yes : Completes n (.chain .equality) us a) (no : Completes n (.chain .equality) ws b) :
    Completes n .condition (ts ++ .mark .question :: us ++ .mark .colon :: ws)
      (.ifThen c a b) := by
  intro stop room placed rest spelled ends
  rw [List.append_assoc, List.cons_append] at spelled
  obtain ⟨before, _, rfl, first, spelled⟩ := exists_placed_append spelled
  obtain ⟨offset, _, rfl, spelled'⟩ := exists_placed_cons spelled
  obtain ⟨between, _, rfl, second, spelled''⟩ := exists_placed_append spelled'
  obtain ⟨place, after, rfl, third⟩ := exists_placed_cons spelled''
  rw [List.append_assoc, List.cons_append, List.append_assoc, List.cons_append,
    readerOf_condition]
  -- The marks end the first two chains, and what ends the conditional ends the third.
  have first := (condition stop room before
      (⟨offset, .mark .question⟩ :: (between ++ (⟨place, .mark .colon⟩ :: (after ++ rest))))
      first WeakerThan.mark).finish fun p same => extend_of_weaker (by rw [same]; exact .mark)
  have second := (yes stop room between (⟨place, .mark .colon⟩ :: (after ++ rest))
      second WeakerThan.mark).finish fun p same => extend_of_weaker (by rw [same]; exact .mark)
  have third := (no stop room after rest third ends.equality).finish
    fun p same => extend_of_weaker (by rw [same]; exact ends.1)
  cases first with
  | refused error result unfit =>
      exact .refused error (conditionOf_of_error result) fun fits =>
        unfit (fits.part (by simp only [depth]; omega))
  | passed p is result =>
      rw [conditionOf_of_question result is.rest]
      refine second.bind (fun fits => fits.part (by simp only [depth]; omega)) fun q is' => ?_
      refine .expect is'.rest fun shorter => ?_
      refine third.bind (fun fits => fits.part (by simp only [depth]; omega)) fun s is'' => ?_
      exact .limited ⟨by simp only [is.tree, is'.tree, is''.tree],
        by simp only [is.depth, is'.depth, is''.depth, depth], is''.rest⟩

theorem Completes.number {n : Nat} {v : Float} :
    Completes n .primary [.number v] (.literal v) := by
  intro stop room placed rest spelled ends
  obtain ⟨offset, rfl⟩ := exists_placed_singleton spelled
  exact .passed ⟨.literal v, 1, rest, by simp⟩ ⟨rfl, rfl, rfl⟩ rfl

theorem Completes.negative {n : Nat} {v : Float} :
    Completes n .primary [.operator .sub, .number v] (.literal (-v)) := by
  intro stop room placed rest spelled ends
  obtain ⟨offset, _, rfl, last⟩ := exists_placed_cons spelled
  obtain ⟨offset', rfl⟩ := exists_placed_singleton last
  exact .passed ⟨.literal (-v), 1, rest, by simp only [List.length_append, List.length_cons]; omega⟩
    ⟨rfl, rfl, rfl⟩ rfl

theorem Completes.x {n : Nat} : Completes n .primary [.name "x"] Expr.x := by
  intro stop room placed rest spelled ends
  obtain ⟨offset, rfl⟩ := exists_placed_singleton spelled
  exact .passed ⟨Expr.x, 1, rest, by simp⟩ ⟨rfl, rfl, rfl⟩ rfl

theorem Completes.y {n : Nat} : Completes n .primary [.name "y"] Expr.y := by
  intro stop room placed rest spelled ends
  obtain ⟨offset, rfl⟩ := exists_placed_singleton spelled
  exact .passed ⟨Expr.y, 1, rest, by simp⟩ ⟨rfl, rfl, rfl⟩ rfl

theorem primaryOf_sub {stop offset : Nat} {inner : Option Rules} {rest : List Placed}
    (unsigned : ∀ p ∈ rest.head?, ∀ v, p.token ≠ .number v) :
    primaryOf stop inner (⟨offset, .operator .sub⟩ :: rest) = (do
      let rules ← opened offset inner
      let a ← rules.primary rest
      limited offset ⟨.binary .mul (.literal (-1.0)) a.tree, a.depth + 1, a.rest,
        Nat.lt_succ_of_lt a.shorter⟩) := by
  cases rest with
  | nil => rfl
  | cons head rest =>
      obtain ⟨place, token⟩ := head
      cases token with
      | number v => exact absurd rfl (unsigned _ rfl v)
      | _ => rfl

theorem Completes.negation {n : Nat} {ts : List Token} {a : Expr}
    (complete : Completes n .primary ts a) (unsigned : ∀ v, ts.head? ≠ some (.number v))
    (nonempty : ts ≠ []) :
    Completes (n + 1) .primary (.operator .sub :: ts) (.binary .mul (.literal (-1.0)) a) := by
  intro stop room placed rest spelled ends
  obtain ⟨offset, after, rfl, operand⟩ := exists_placed_cons spelled
  change Passes (primaryOf stop (innerRules stop room) (⟨offset, .operator .sub⟩ :: (after ++ rest)))
    _ _ _ _
  rw [primaryOf_sub]
  · refine .opened fun inside same => ?_
    subst same
    rw [rulesAt_eq]
    refine (complete stop inside after rest operand trivial).bind
      (fun fits => fits.inside (by simp only [depth]; omega)) fun p is => ?_
    have := a.one_le_depth
    exact .limited ⟨by rw [is.tree], by simp only [is.depth, depth]; omega, is.rest⟩
  · intro p head v number
    cases after with
    | nil => exact nonempty (by rw [← operand]; rfl)
    | cons q after =>
        cases head
        rw [← operand] at unsigned
        exact unsigned v (congrArg some number)

theorem Completes.group {n : Nat} {ts : List Token} {e : Expr}
    (complete : Completes n .condition ts e) :
    Completes (n + 1) .primary (.mark .openParen :: ts ++ [.mark .closeParen]) e := by
  intro stop room placed rest spelled ends
  obtain ⟨offset, _, rfl, enclosed⟩ := exists_placed_cons spelled
  obtain ⟨within, _, rfl, argument, closing⟩ := exists_placed_append enclosed
  obtain ⟨place, rfl⟩ := exists_placed_singleton closing
  rw [List.cons_append, List.append_assoc, List.cons_append, List.nil_append]
  refine .opened fun inside same => ?_
  subst same
  rw [rulesAt_eq]
  refine (complete stop inside within (⟨place, .mark .closeParen⟩ :: rest) argument
    ⟨.mark, by simp⟩).bind (fun fits => fits.inside (Nat.le_refl _)) fun p is => ?_
  refine .expect is.rest fun shorter => ?_
  exact .passed _ ⟨is.tree, is.depth, rfl⟩ rfl

theorem Passes.longer {name : String} {offset : Nat} {tokens : List Placed}
    {read : Except SourceError (Parsed tokens)} {e : Expr} {rest : List Placed} {fits : Prop}
    (passes : Passes read .ok e rest fits) :
    Passes ((fun p => ⟨p.tree, p.depth, p.rest, Nat.lt_succ_of_lt p.shorter⟩) <$> read :
      Except SourceError (Parsed (⟨offset, .name name⟩ :: tokens))) .ok e rest fits := by
  cases passes with
  | passed p is result =>
      rw [result]
      exact .passed ⟨p.tree, p.depth, p.rest, Nat.lt_succ_of_lt p.shorter⟩
        ⟨is.tree, is.depth, is.rest⟩ rfl
  | refused error result unfit =>
      rw [result]
      exact .refused error rfl unfit

theorem nameOf_unary (stop : Nat) (inner : Option Rules) (offset : Nat) (f : Unary)
    (tokens : List Placed) :
    nameOf stop inner offset f.name tokens =
      (fun p => ⟨p.tree, p.depth, p.rest, Nat.lt_succ_of_lt p.shorter⟩) <$>
        callOf stop inner offset f tokens := by
  cases f <;> rfl

theorem nameOf_choice (stop : Nat) (inner : Option Rules) (offset : Nat) (f : Choice)
    (tokens : List Placed) :
    nameOf stop inner offset f.name tokens =
      (fun p => ⟨p.tree, p.depth, p.rest, Nat.lt_succ_of_lt p.shorter⟩) <$>
        chooseOf stop inner offset f tokens := by
  cases f <;> rfl

theorem Completes.call {n : Nat} {ts : List Token} {a : Expr} (f : Unary)
    (complete : Completes n .condition ts a) :
    Completes (n + 1) .primary
      (.name f.name :: .mark .openParen :: ts ++ [.mark .closeParen]) (.call f a) := by
  intro stop room placed rest spelled ends
  obtain ⟨offset, _, rfl, opening⟩ := exists_placed_cons spelled
  obtain ⟨place, _, rfl, enclosed⟩ := exists_placed_cons opening
  obtain ⟨within, _, rfl, argument, closing⟩ := exists_placed_append enclosed
  obtain ⟨place', rfl⟩ := exists_placed_singleton closing
  rw [List.cons_append, List.cons_append, List.append_assoc, List.cons_append, List.nil_append]
  change Passes (nameOf stop (innerRules stop room) offset f.name _) .ok _ _ _
  rw [nameOf_unary]
  refine Passes.longer ?_
  refine .expect rfl fun shorter => ?_
  refine .opened fun inside same => ?_
  subst same
  rw [rulesAt_eq]
  refine (complete stop inside within (⟨place', .mark .closeParen⟩ :: rest) argument
    ⟨.mark, by simp⟩).bind (fun fits => fits.inside (by simp only [depth]; omega)) fun p is => ?_
  refine .expect is.rest fun shorter => ?_
  exact .limited ⟨by rw [is.tree], by simp only [is.depth, depth]; omega, rfl⟩

theorem Completes.choose {n : Nat} {ts us : List Token} {a b : Expr} (f : Choice)
    (complete : Completes n .condition ts a) (complete' : Completes n .condition us b) :
    Completes (n + 1) .primary
      (.name f.name :: .mark .openParen :: ts ++ .mark .comma :: us ++ [.mark .closeParen])
      (.choose f a b) := by
  intro stop room placed rest spelled ends
  rw [List.append_assoc] at spelled
  obtain ⟨offset, _, rfl, opening⟩ := exists_placed_cons spelled
  obtain ⟨place, _, rfl, enclosed⟩ := exists_placed_cons opening
  obtain ⟨within, _, rfl, first, comma⟩ := exists_placed_append enclosed
  obtain ⟨place', _, rfl, enclosed'⟩ := exists_placed_cons comma
  obtain ⟨within', _, rfl, second, closing⟩ := exists_placed_append enclosed'
  obtain ⟨place'', rfl⟩ := exists_placed_singleton closing
  rw [List.cons_append, List.cons_append, List.append_assoc, List.cons_append, List.append_assoc,
    List.cons_append, List.nil_append]
  change Passes (nameOf stop (innerRules stop room) offset f.name _) .ok _ _ _
  rw [nameOf_choice]
  refine Passes.longer ?_
  refine .expect rfl fun shorter => ?_
  refine .opened fun inside same => ?_
  subst same
  rw [rulesAt_eq]
  refine (complete stop inside within
    (⟨place', .mark .comma⟩ :: (within' ++ ⟨place'', .mark .closeParen⟩ :: rest)) first
    ⟨.mark, by simp⟩).bind (fun fits => fits.inside (by simp only [depth]; omega)) fun p is => ?_
  refine .expect is.rest fun shorter => ?_
  refine (complete' stop inside within' (⟨place'', .mark .closeParen⟩ :: rest) second
    ⟨.mark, by simp⟩).bind (fun fits => fits.inside (by simp only [depth]; omega)) fun q is' => ?_
  refine .expect is'.rest fun shorter => ?_
  exact .limited ⟨by rw [is.tree, is'.tree], by simp only [is.depth, is'.depth, depth], rfl⟩

theorem Spells.nonempty {n : Nat} {phrase : Phrase} {ts : List Token} {e : Expr}
    (words : Spells n phrase ts e) : ts ≠ [] := by
  induction words with
  | equality words induction => exact induction
  | operand words induction => exact induction
  | _ => simp

theorem Spells.completes {n : Nat} {phrase : Phrase} {ts : List Token} {e : Expr}
    (words : Spells n phrase ts e) : Completes n phrase ts e := by
  induction words with
  | equality words complete => exact complete.equality
  | ifThen condition yes no first second third => exact first.ifThen second third
  | operand words complete => exact complete.operand
  | join member left right first second => exact first.join member second
  | number => exact .number
  | negative => exact .negative
  | negation words unsigned complete => exact complete.negation unsigned words.nonempty
  | x => exact .x
  | y => exact .y
  | call f argument complete => exact complete.call f
  | choose f first second complete complete' => exact complete.choose f complete'
  | group words complete => exact complete.group

/-- Whole lists of tokens, read or refused. -/
theorem passes_ofTokens {n : Nat} {placed : List Placed} {e : Expr} (stop : Nat)
    (words : Spells n .condition (placed.map Placed.token) e) :
    (ofTokens stop placed = .ok e) ∨
      ((∃ error, ofTokens stop placed = .error error) ∧ ¬ Fits n greatestDepth e) := by
  have passes := words.completes stop greatestDepth placed [] rfl
    ⟨by simp [WeakerThan], by simp⟩
  rw [List.append_nil] at passes
  unfold ofTokens
  rw [rulesAt_eq]
  change Passes ((rulesOf stop (innerRules stop greatestDepth)).condition placed) .ok _ _ _ at passes
  cases passes with
  | passed p is result =>
      refine .inl ?_
      rw [result]
      obtain ⟨tree, depth, rest, shorter⟩ := p
      obtain ⟨rfl, -, rfl⟩ := is
      rfl
  | refused error result unfit =>
      refine .inr ⟨⟨error, ?_⟩, unfit⟩
      rw [result]
      rfl

theorem spells_of_ofTokens {stop : Nat} {placed : List Placed} {e : Expr}
    (read : ofTokens stop placed = .ok e) :
    Spells greatestDepth .condition (placed.map Placed.token) e ∧ e.depth ≤ greatestDepth := by
  unfold ofTokens at read
  obtain ⟨p, within, read⟩ := exists_of_bind_eq_ok read
  rw [rulesAt_eq] at within
  obtain ⟨used, consumed, words, depth, shallow⟩ :=
    Sound.reader (nested_innerRules stop greatestDepth) .condition _ _ within
  cases nothing : p.rest with
  | nil =>
      rw [nothing] at read
      cases read
      rw [nothing, List.append_nil] at consumed
      rw [← consumed] at words
      exact ⟨words, depth ▸ shallow⟩
  | cons extra rest =>
      rw [nothing] at read
      cases read

theorem ofTokens_eq_ok_iff {stop : Nat} {placed : List Placed} {e : Expr} :
    ofTokens stop placed = .ok e ↔
      Spells greatestDepth .condition (placed.map Placed.token) e ∧ e.depth ≤ greatestDepth := by
  constructor
  · exact spells_of_ofTokens
  · rintro ⟨words, shallow⟩
    exact (passes_ofTokens stop words).resolve_right fun refused =>
      refused.2 ⟨Nat.le_refl _, shallow⟩

/-- A text splits into tokens that spell a tree. -/
def Derives (n : Nat) (text : String) (e : Expr) : Prop :=
  ∃ placed, tokens 0 text.toList = .ok placed ∧
    Spells n .condition (placed.map Placed.token) e

/-- A text is accepted exactly when its tokens are derived within the limits, and then no other tree is derived from
them, whether within the limits or not. -/
theorem parse_eq_ok_iff (text : String) :
    (∀ e, parse text = .ok e ↔ Derives 128 text e ∧ e.depth ≤ 128) ∧
    (∀ e n e', parse text = .ok e → Derives n text e' → e' = e) := by
  constructor
  · intro e
    constructor
    · intro read
      obtain ⟨placed, lexed, read⟩ := exists_of_bind_eq_ok read
      obtain ⟨words, shallow⟩ := spells_of_ofTokens read
      exact ⟨⟨placed, lexed, words⟩, shallow⟩
    · rintro ⟨⟨placed, lexed, words⟩, shallow⟩
      unfold parse ofText
      rw [lexed]
      exact ofTokens_eq_ok_iff.mpr ⟨words, shallow⟩
  · rintro e n e' read ⟨placed, lexed, words⟩
    unfold parse ofText at read
    rw [lexed] at read
    change ofTokens _ placed = .ok e at read
    rcases passes_ofTokens (0 + Text.byteLength text.toList) words with same | refused
    · rw [same] at read
      exact Except.ok.inj read
    · obtain ⟨⟨error, refused⟩, -⟩ := refused
      rw [refused] at read
      cases read

end DriftField.Expr
