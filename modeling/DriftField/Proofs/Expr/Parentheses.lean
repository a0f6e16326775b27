import Mathlib
import DriftField.Proofs.Expr.Lexemes
import DriftField.Proofs.Expr.RoundTrip
/-!
The parentheses of printed expressions. A product by minus one may be spelled as a negation, without its asterisk; apart
from that, no text of an expression has fewer parentheses than the printed one. So none of these can be left out.
-/

namespace DriftField.Expr

@[simp] def Token.isOpen : Token → Bool
  | .mark .openParen => true
  | _ => false

@[simp] def Token.isTimes : Token → Bool
  | .operator .mul => true
  | _ => false

def opens (ts : List Token) : Nat := ts.countP Token.isOpen

def times (ts : List Token) : Nat := ts.countP Token.isTimes

section
variable (t : Token) (ts us : List Token) (inside : Bool)

@[simp] theorem opens_nil : opens [] = 0 := rfl

@[simp] theorem opens_cons : opens (t :: ts) = opens ts + t.isOpen.toNat := by
  unfold opens
  rw [List.countP_cons]
  cases t.isOpen <;> rfl

@[simp] theorem opens_append : opens (ts ++ us) = opens ts + opens us := List.countP_append

@[simp] theorem opens_enclosed : opens (enclosed inside ts) = opens ts + inside.toNat := by
  cases inside <;> simp [enclosed, Token.isOpen]

@[simp] theorem times_nil : times [] = 0 := rfl

@[simp] theorem times_cons : times (t :: ts) = times ts + t.isTimes.toNat := by
  unfold times
  rw [List.countP_cons]
  cases t.isTimes <;> rfl

@[simp] theorem times_append : times (ts ++ us) = times ts + times us := List.countP_append

@[simp] theorem times_enclosed : times (enclosed inside ts) = times ts := by
  cases inside <;> simp [enclosed, Token.isTimes]

end

/-! ### What the printer writes -/

@[simp] theorem opens_literalTokens (v : Float) : opens (literalTokens v) = 0 := by
  unfold literalTokens
  split_ifs
  all_goals rfl

@[simp] theorem times_literalTokens (v : Float) : times (literalTokens v) = 0 := by
  unfold literalTokens
  split_ifs
  all_goals rfl

@[simp] def products : Expr → Nat
  | .literal _ | .coordinate _ => 0
  | .call _ a => a.products
  | .choose _ a b => a.products + b.products
  | .binary op a b => a.products + b.products + (Token.operator op).isTimes.toNat
  | .ifThen c a b => c.products + a.products + b.products

@[simp] theorem times_written (e : Expr) (least : Nat) : times (written least e) = e.products := by
  induction e generalizing least with
  | literal v => exact times_literalTokens v
  | coordinate c => cases c <;> rfl
  | call f a argument => simp [written, argument]
  | choose f a b first second =>
      simp [written, first, second]
  | binary op a b left right =>
      simp only [written, times_enclosed, times_append, times_cons, left, right, products]
      omega
  | ifThen c a b condition yes no =>
      simp only [written, times_enclosed, times_append, times_cons, Token.isTimes, Bool.toNat_false, condition, yes, no,
        products]
      omega

section
variable (least : Nat) (c a b : Expr)

theorem opens_written_call (f : Unary) : opens (written least (.call f a)) = opens (written 0 a) + 1 := by
  simp [written]

theorem opens_written_choose (f : Choice) :
    opens (written least (.choose f a b)) = opens (written 0 a) + opens (written 0 b) + 1 := by
  simp [written]

theorem opens_written_binary (op : Operator) :
    opens (written least (.binary op a b)) =
      opens (written op.strength a) + opens (written (op.strength + 1) b) + (decide (op.strength < least)).toNat := by
  simp [written]

theorem opens_written_ifThen :
    opens (written least (.ifThen c a b)) =
      opens (written 1 c) + opens (written 1 a) + opens (written 1 b) + (decide (0 < least)).toNat := by
  simp [written, Nat.add_assoc]

end

theorem opens_written_mono (e : Expr) {least least' : Nat} (weaker : least ≤ least') :
    opens (written least e) ≤ opens (written least' e) := by
  have more {strength : Nat} : (decide (strength < least)).toNat ≤ (decide (strength < least')).toNat := by
    by_cases encloses : strength < least
    · simp [encloses, encloses.trans_le weaker]
    · simp [encloses]
  cases e with
  | coordinate c => cases c <;> exact Nat.le_refl _
  | binary op a b =>
      rw [opens_written_binary, opens_written_binary]
      exact Nat.add_le_add_left more _
  | ifThen c a b =>
      rw [opens_written_ifThen, opens_written_ifThen]
      exact Nat.add_le_add_left more _
  | _ => exact Nat.le_refl _

theorem opens_written_le (e : Expr) (least : Nat) : opens (written least e) ≤ opens (written 0 e) + 1 := by
  cases e with
  | coordinate c => cases c <;> exact Nat.le_succ _
  | binary op a b =>
      rw [opens_written_binary, opens_written_binary]
      exact Nat.add_le_add_left (Bool.toNat_le _) _
  | ifThen c a b =>
      rw [opens_written_ifThen, opens_written_ifThen]
      exact Nat.add_le_add_left (Bool.toNat_le _) _
  | _ => exact Nat.le_succ _

theorem counts_of_same {e e' : Expr} (alike : e.same e' = true) (least : Nat) :
    e.products = e'.products ∧ opens (written least e) = opens (written least e') := by
  induction e generalizing e' least with
  | literal v =>
      cases e' with
      | literal w => simp [written]
      | _ => cases alike
  | coordinate c =>
      cases e' with
      | coordinate d =>
          obtain rfl := eq_of_beq alike
          exact ⟨rfl, rfl⟩
      | _ => cases alike
  | call f a argument =>
      cases e' with
      | call g a' =>
          obtain ⟨-, alike⟩ := Bool.and_eq_true_iff.mp alike
          have inside := argument alike 0
          simp [opens_written_call, inside]
      | _ => cases alike
  | choose f a b first second =>
      cases e' with
      | choose g a' b' =>
          obtain ⟨before, alike'⟩ := Bool.and_eq_true_iff.mp alike
          obtain ⟨-, alike⟩ := Bool.and_eq_true_iff.mp before
          have inside := first alike 0
          have inside' := second alike' 0
          simp [opens_written_choose, inside, inside']
      | _ => cases alike
  | binary op a b left right =>
      cases e' with
      | binary op' a' b' =>
          obtain ⟨before, alike'⟩ := Bool.and_eq_true_iff.mp alike
          obtain ⟨operator, alike''⟩ := Bool.and_eq_true_iff.mp before
          obtain rfl := eq_of_beq operator
          have inside := left alike'' op.strength
          have inside' := right alike' (op.strength + 1)
          simp [opens_written_binary, inside, inside']
      | _ => cases alike
  | ifThen c a b condition yes no =>
      cases e' with
      | ifThen c' a' b' =>
          obtain ⟨before, third⟩ := Bool.and_eq_true_iff.mp alike
          obtain ⟨first, second⟩ := Bool.and_eq_true_iff.mp before
          have inside := condition first 1
          have inside' := yes second 1
          have inside'' := no third 1
          simp [opens_written_ifThen, inside, inside', inside'']
      | _ => cases alike

/-! ### What spells an expression -/

def Phrase.least : Phrase → Nat
  | .condition => 0
  | .chain r => r.strength
  | .primary => 4

@[simp] theorem Phrase.least_condition : Phrase.condition.least = 0 := rfl

@[simp] theorem Phrase.least_chain (r : Rank) : (Phrase.chain r).least = r.strength := rfl

@[simp] theorem Phrase.least_primary : Phrase.primary.least = 4 := rfl

theorem Rank.least_operand (r : Rank) : r.operand.least = r.strength + 1 := by
  cases r <;> rfl

theorem Spells.opens_le {n : Nat} {phrase : Phrase} {ts : List Token} {e : Expr} (words : Spells n phrase ts e) :
    opens (written phrase.least e) + times ts ≤ opens ts + e.products := by
  induction words with
  | @equality n ts e words induction =>
      have weaker := e.opens_written_mono (Nat.zero_le (Phrase.chain .equality).least)
      exact (Nat.add_le_add_right weaker _).trans induction
  | ifThen condition yes no first second third =>
      simp only [Phrase.least_chain, Rank.strength] at first second third
      simp only [Phrase.least_condition, opens_written_ifThen, products, opens_append, opens_cons, Token.isOpen,
        times_append, times_cons, Token.isTimes, Bool.toNat_false, Nat.lt_irrefl, decide_false]
      omega
  | @operand n r ts e words induction =>
      have weaker : opens (written r.strength e) ≤ opens (written (r.strength + 1) e) :=
        e.opens_written_mono (Nat.le_succ _)
      rw [Rank.least_operand] at induction
      exact (Nat.add_le_add_right weaker _).trans induction
  | join member left right first second =>
      have strength := Rank.mem_operators.mp member
      rw [Rank.least_operand] at second
      simp only [Phrase.least_chain] at first
      simp only [Phrase.least_chain, opens_written_binary, strength, products, opens_append, opens_cons, Token.isOpen,
        times_append, times_cons, Bool.toNat_false, Nat.lt_irrefl, decide_false]
      omega
  | number => simp [written]
  | negative => simp [written]
  | @negation n ts a words unsigned induction =>
      -- The parentheses around the product are saved, and its asterisk with them.
      have printed : opens (written 4 (.binary .mul (.literal (-1.0)) a)) = opens (written 4 a) + 1 := by
        rw [opens_written_binary]
        simp [written, Operator.strength]
      rw [Phrase.least_primary] at induction
      simp only [Phrase.least_primary, printed, products, opens_cons, Token.isOpen, times_cons, Token.isTimes,
        Bool.toNat_false, Bool.toNat_true]
      omega
  | x => simp [written, Expr.x]
  | y => simp [written, Expr.y]
  | call f argument induction =>
      rw [Phrase.least_condition] at induction
      simp only [Phrase.least_primary, opens_written_call, products, List.cons_append, opens_cons, opens_append, opens_nil,
        Token.isOpen, times_cons, times_append, times_nil, Token.isTimes, Bool.toNat_false, Bool.toNat_true]
      omega
  | choose f first second induction induction' =>
      rw [Phrase.least_condition] at induction induction'
      simp only [Phrase.least_primary, opens_written_choose, products, List.cons_append, opens_cons, opens_append, opens_nil,
        Token.isOpen, times_cons, times_append, times_nil, Token.isTimes, Bool.toNat_false, Bool.toNat_true]
      omega
  | @group n ts e words induction =>
      have most := e.opens_written_le 4
      rw [Phrase.least_condition] at induction
      simp only [Phrase.least_primary, List.cons_append, opens_cons, opens_append, opens_nil, Token.isOpen, times_cons,
        times_append, times_nil, Token.isTimes, Bool.toNat_false, Bool.toNat_true]
      omega

/-! ### Texts -/

theorem count_eq_zero_of_isWordPart {d : Char} {cs : List Char} (other : isWordPart d = false)
    (parts : ∀ c ∈ cs, isWordPart c = true) : cs.count d = 0 := by
  apply List.count_eq_zero.mpr
  intro member
  rw [parts d member] at other
  cases other

theorem counts_of_single? {c : Char} {t : Token} (known : single? c = some t) :
    [c].count '(' = t.isOpen.toNat ∧ [c].count '*' = t.isTimes.toNat := by
  unfold single? at known
  split_ifs at known
  all_goals
    subst c
    cases known
    decide

theorem Lexeme.count_open {cs : List Char} {t : Token} (lexeme : Lexeme cs t) : cs.count '(' = t.isOpen.toNat := by
  cases lexeme with
  | single known => exact (counts_of_single? known).1
  | equals => rfl
  | number v parts => exact count_eq_zero_of_isWordPart (by decide) parts
  | name s parts => exact count_eq_zero_of_isWordPart (by decide) parts

theorem Lexeme.count_times {cs : List Char} {t : Token} (lexeme : Lexeme cs t) : cs.count '*' = t.isTimes.toNat := by
  cases lexeme with
  | single known => exact (counts_of_single? known).2
  | equals => rfl
  | number v parts => exact count_eq_zero_of_isWordPart (by decide) parts
  | name s parts => exact count_eq_zero_of_isWordPart (by decide) parts

theorem counts_of_words? {offset : Nat} {cs : List Char} {ts : List Token} (read : words? offset cs = some ts) :
    cs.count '(' = opens ts ∧ cs.count '*' = times ts := by
  obtain ⟨placed, lexed, rfl⟩ := Option.map_eq_some_iff.mp read
  have split := split offset cs
  rw [toOption_eq_some_iff.mp lexed] at split
  exact ⟨split.count rfl fun _ _ => Lexeme.count_open, split.count rfl fun _ _ => Lexeme.count_times⟩

theorem words?_text (e : Expr) : words? 0 e.text.toList = some (written 0 e) := by
  unfold text
  rw [String.toList_ofList]
  obtain ⟨stop, placed, spelled, read⟩ := lexes_writeOnto e 0 [] .nil 0
  unfold words?
  rw [read, tokens.eq_def]
  simp [Except.map, Except.toOption, spelled]

/-- What reads as an expression has at least the parentheses of its text, but for one for each asterisk saved. -/
theorem count_le_of_parse {text : String} {e : Expr} (read : parse text = .ok e) :
    e.text.toList.count '(' + text.toList.count '*' ≤ text.toList.count '(' + e.text.toList.count '*' := by
  obtain ⟨ts, split, words, -⟩ := ofText_eq_ok_iff.mp read
  obtain ⟨opened, starred⟩ := counts_of_words? split
  obtain ⟨opened', starred'⟩ := counts_of_words? (words?_text e)
  rw [opened, starred, opened', starred', times_written]
  exact words.opens_le

theorem counts_of_beq {e e' : Expr} (alike : (e' == e) = true) :
    e'.text.toList.count '(' = e.text.toList.count '(' ∧ e'.text.toList.count '*' = e.text.toList.count '*' := by
  obtain ⟨opened, starred⟩ := counts_of_words? (words?_text e)
  obtain ⟨opened', starred'⟩ := counts_of_words? (words?_text e')
  obtain ⟨products, parentheses⟩ := counts_of_same alike 0
  rw [opened, starred, opened', starred', times_written, times_written]
  exact ⟨parentheses, products⟩

/-- A printed expression without one pair of its parentheses does not read as that expression any more, nor as one that
differs from it by the signs of zeros only. -/
theorem parentheses_needed (e : Expr) {before inside after : List Char}
    (pair : e.text.toList = before ++ '(' :: inside ++ ')' :: after) :
    ∀ e', parse (String.ofList (before ++ inside ++ after)) = .ok e' → e' ≠ e ∧ (e' == e) = false := by
  intro e' read
  have fewest := count_le_of_parse read
  -- The text that is left has one parenthesis less, and the same asterisks.
  have fewer : ¬ (e'.text.toList.count '(' = e.text.toList.count '(' ∧
      e'.text.toList.count '*' = e.text.toList.count '*') := by
    rintro ⟨opened, starred⟩
    rw [opened, starred, pair, String.toList_ofList] at fewest
    simp [List.count_append] at fewest
  constructor
  · rintro rfl
    exact fewer ⟨rfl, rfl⟩
  · apply Bool.eq_false_iff.mpr
    exact fun alike => fewer (counts_of_beq alike)

theorem negated_parentheses_needed :
    let e : Expr := .binary .mul Expr.x (.binary .mul (.literal (-1.0)) Expr.y)
    e.text = "x*(-1*y)" ∧ (parse "x*-1*y").toOption.isSome = true ∧
      ∀ e', parse "x*-1*y" = .ok e' → e' ≠ e ∧ (e' == e) = false := by
  intro e
  have printed : e.text = "x*(-1*y)" := by decide +kernel
  refine ⟨printed, by decide +kernel, ?_⟩
  exact @parentheses_needed e "x*".toList "-1*y".toList [] (by rw [printed]; decide)

end DriftField.Expr
