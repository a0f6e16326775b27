import Mathlib
import DriftField.Proofs.Expr.Completeness
import DriftField.Proofs.Expr.Lexing
/-!
Printed expressions read back: the text of a tree is accepted exactly when the tree is within the limits, and it is
read as that tree.
-/

namespace DriftField.Expr

/-! The tokens that the printer writes. -/

def literalTokens (v : Float) : List Token :=
  if v.isNaN then [.name "NaN"]
  else (if Scalar.isNegative v then [.operator .sub] else []) ++
    [if Scalar.isFinite v then .number v.abs else .name "inf"]

def enclosed (inside : Bool) (ts : List Token) : List Token :=
  if inside then .mark .openParen :: ts ++ [.mark .closeParen] else ts

def written (least : Nat) : Expr → List Token
  | .literal v => literalTokens v
  | .coordinate .x => [.name "x"]
  | .coordinate .y => [.name "y"]
  | .call f a => .name f.name :: .mark .openParen :: written 0 a ++ [.mark .closeParen]
  | .choose f a b =>
      .name f.name :: .mark .openParen :: written 0 a ++ .mark .comma :: written 0 b ++
        [.mark .closeParen]
  | .binary op a b =>
      enclosed (op.strength < least)
        (written op.strength a ++ .operator op :: written (op.strength + 1) b)
  | .ifThen c a b =>
      enclosed (0 < least)
        (written 1 c ++ .mark .question :: written 1 a ++ .mark .colon :: written 1 b)

theorem Lexes.cons {cs between rest : List Char} {t : Token} {ts : List Token}
    (first : Lexes cs between [t]) (second : Lexes between rest ts) :
    Lexes cs rest (t :: ts) := first.trans second

theorem valueOf_positional {v : Float} {text : List Char} {d : Decimal}
    (finite : Scalar.isFinite v = true) (spelled : Decimal.Positional text d)
    (value : d.toFloat = v.abs) : valueOf text = .ok v.abs := by
  unfold valueOf
  rw [spelled.number?_eq, value]
  simp only [(Scalar.isFinite_abs v).trans finite, if_true]

theorem Lexes.magnitude {v : Float} (number : v.isNaN = false) {rest : List Char}
    (parted : Parted rest) :
    ∃ text, Decimal.plain v = Decimal.signed v text ∧
      Lexes (text ++ rest) rest [if Scalar.isFinite v then .number v.abs else .name "inf"] := by
  cases finite : Scalar.isFinite v with
  | true =>
      obtain ⟨text, d, spelled, value, written⟩ := Decimal.plain_of_isFinite finite
      obtain ⟨c, more, nonempty, -⟩ := spelled.exists_cons
      refine ⟨text, written, ?_⟩
      refine .number ?_ (by simp [nonempty]) (valueOf_positional finite spelled value) parted
      intro c member
      rcases spelled.digit_or_point member with digit | point
      · simp [isNumeric, digit]
      · simp [isNumeric, point]
  | false =>
      refine ⟨['i', 'n', 'f'], ?_, .name rfl rfl parted⟩
      unfold Decimal.plain
      simp only [number, finite, Bool.false_eq_true, if_false]

theorem Lexes.plain (v : Float) {rest : List Char} (parted : Parted rest) :
    Lexes (Decimal.plain v ++ rest) rest (literalTokens v) := by
  unfold literalTokens
  cases number : v.isNaN with
  | true =>
      have written : Decimal.plain v = ['N', 'a', 'N'] := by
        unfold Decimal.plain
        rw [number, if_pos rfl]
      rw [written]
      exact .name rfl rfl parted
  | false =>
      obtain ⟨text, written, lexed⟩ := Lexes.magnitude number parted
      rw [written]
      unfold Decimal.signed
      cases Scalar.isNegative v with
      | true => exact .cons (.symbol .sub _) lexed
      | false => exact lexed

theorem Lexes.enclose {write : List Char → List Char} {ts : List Token} (inside : Bool)
    (lexed : ∀ rest, Parted rest → Lexes (write rest) rest ts) {rest : List Char}
    (parted : Parted rest) : Lexes (enclose inside write rest) rest (enclosed inside ts) := by
  cases inside with
  | false => exact lexed rest parted
  | true =>
      exact (Lexes.mark .openParen _).cons <|
        (lexed _ (.mark .closeParen rest)).trans (.mark .closeParen rest)

theorem Lexes.nameOf {name : String} {c : Char} {cs rest : List Char}
    (spelling : name.toList = c :: cs) (starts : isNameStart c = true)
    (parts : cs.all isNamePart = true) (parted : Parted rest) :
    Lexes (name.toList ++ rest) rest [.name name] := by
  have lexed := Lexes.name starts parts parted
  rw [← spelling, String.ofList_toList] at lexed
  exact lexed

theorem Lexes.unary (f : Unary) {rest : List Char} (parted : Parted rest) :
    Lexes (f.name.toList ++ rest) rest [.name f.name] := by
  cases f <;> exact .nameOf rfl rfl rfl parted

theorem Lexes.choice (f : Choice) {rest : List Char} (parted : Parted rest) :
    Lexes (f.name.toList ++ rest) rest [.name f.name] := by
  cases f <;> exact .nameOf rfl rfl rfl parted

theorem Lexes.spaced (m : Mark) (rest : List Char) :
    Lexes (' ' :: (m.spelling.toList ++ ' ' :: rest)) rest [.mark m] :=
  (Lexes.gap rfl _).trans ((Lexes.mark m _).cons (.gap rfl rest))

theorem lexes_writeOnto (e : Expr) (least : Nat) (rest : List Char) (parted : Parted rest) :
    Lexes (writeOnto least e rest) rest (written least e) := by
  induction e generalizing least rest with
  | literal v => exact .plain v parted
  | coordinate c =>
      cases c with
      | x => exact .name rfl rfl parted
      | y => exact .name rfl rfl parted
  | call f a argument =>
      exact (Lexes.unary f (.mark .openParen _)).cons <|
        (Lexes.mark .openParen _).cons <|
        (argument 0 _ (.mark .closeParen rest)).trans (.mark .closeParen rest)
  | choose f a b first second =>
      rw [written, List.append_assoc]
      exact (Lexes.choice f (.mark .openParen _)).cons <|
        (Lexes.mark .openParen _).cons <|
        (first 0 _ (.mark .comma _)).trans <|
        (Lexes.mark .comma _).cons <|
        (second 0 _ (.mark .closeParen rest)).trans (.mark .closeParen rest)
  | binary op a b left right =>
      refine .enclose _ (fun rest parted => ?_) parted
      exact (left _ _ (.symbol op _)).trans ((Lexes.symbol op _).cons (right _ rest parted))
  | ifThen c a b condition yes no =>
      refine .enclose _ (fun rest parted => ?_) parted
      rw [List.append_assoc]
      exact (condition 1 _ (.space _)).trans <|
        (Lexes.spaced .question _).cons <|
        (yes 1 _ (.space _)).trans <|
        (Lexes.spaced .colon _).cons (no 1 rest parted)

/-! The derivation of what the printer writes. -/

def Phrase.atLeast : Nat → Phrase
  | 0 => .condition
  | 1 => .chain .equality
  | 2 => .chain .sum
  | 3 => .chain .product
  | _ => .primary

def Rank.of : Operator → Rank
  | .eq => .equality
  | .add | .sub => .sum
  | .mul | .div | .rem => .product

theorem Spells.weaken {n : Nat} {ts : List Token} {e : Expr} {strength least : Nat}
    (words : Spells n (.atLeast strength) ts e) (weaker : least ≤ strength) :
    Spells n (.atLeast least) ts e := by
  induction weaker with
  | refl => exact words
  | @step strength weaker induction =>
      apply induction
      match strength with
      | 0 => exact .equality words
      | 1 => exact .operand words
      | 2 => exact .operand words
      | 3 => exact .operand words
      | _ + 4 => exact words

theorem Spells.primary {n : Nat} {ts : List Token} {e : Expr} (least : Nat)
    (words : Spells n .primary ts e) : Spells n (.atLeast least) ts e :=
  @Spells.weaken n ts e (least + 4) least words (by omega)

theorem Spells.binary {n : Nat} {op : Operator} {ts us : List Token} {a b : Expr}
    (left : Spells n (.atLeast op.strength) ts a)
    (right : Spells n (.atLeast (op.strength + 1)) us b) :
    Spells n (.atLeast op.strength) (ts ++ .operator op :: us) (.binary op a b) := by
  cases op <;> exact .join (by decide) left right

/-- Parentheses stand where the phrase binds too weakly, and then one more is open inside. -/
theorem Spells.enclosed {n strength least : Nat} {ts : List Token} {e : Expr}
    (words : ∀ m, n ≤ m + 1 → Spells m (.atLeast strength) ts e)
    (deep : 1 ≤ n) :
    Spells n (.atLeast least) (Expr.enclosed (strength < least) ts) e := by
  obtain ⟨m, rfl⟩ := Nat.exists_eq_add_of_le' deep
  unfold Expr.enclosed
  split
  · exact .primary least (.group ((words m (Nat.le_refl _)).weaken (Nat.zero_le _)))
  · next strong =>
    exact (words (m + 1) (Nat.le_succ _)).weaken
      (Nat.not_lt.mp fun weak => strong (decide_eq_true weak))

theorem spells_literal {n : Nat} {v : Float} (finite : Scalar.isFinite v = true) :
    Spells n .primary (literalTokens v) (.literal v) := by
  unfold literalTokens
  rw [if_neg (by rw [Scalar.not_isNaN_of_isFinite finite]; exact Bool.false_ne_true), if_pos finite]
  cases sign : Scalar.isNegative v with
  | true =>
      have words := @Spells.negative n v.abs
      rw [Scalar.neg_abs sign] at words
      exact words
  | false =>
      rw [Scalar.abs_eq_self sign]
      exact .number

theorem spells_written {e : Expr} (least n : Nat) (finite : e.literalsFinite = true)
    (shallow : e.depth ≤ n + 1) : Spells n (.atLeast least) (written least e) e := by
  induction e generalizing least n with
  | literal v => exact .primary least (spells_literal finite)
  | coordinate c =>
      cases c with
      | x => exact .primary least .x
      | y => exact .primary least .y
  | call f a argument =>
      simp only [depth] at shallow
      have := a.one_le_depth
      obtain ⟨m, rfl⟩ := Nat.exists_eq_add_of_le' (show 1 ≤ n by omega)
      exact .primary least (.call f (argument 0 m finite (by omega)))
  | choose f a b first second =>
      simp only [depth] at shallow
      have := a.one_le_depth
      obtain ⟨finite, finite'⟩ := Bool.and_eq_true_iff.mp finite
      obtain ⟨m, rfl⟩ := Nat.exists_eq_add_of_le' (show 1 ≤ n by omega)
      exact .primary least
        (.choose f (first 0 m finite (by omega)) (second 0 m finite' (by omega)))
  | binary op a b left right =>
      simp only [depth] at shallow
      have := a.one_le_depth
      obtain ⟨finite, finite'⟩ := Bool.and_eq_true_iff.mp finite
      -- Where parentheses open, the operands have one less room and are one node less deep.
      refine .enclosed (fun m room => ?_) (by omega)
      exact .binary (left _ m finite (by omega)) (right _ m finite' (by omega))
  | ifThen c a b condition yes no =>
      simp only [depth] at shallow
      have := a.one_le_depth
      obtain ⟨finite, finite''⟩ := Bool.and_eq_true_iff.mp finite
      obtain ⟨finite, finite'⟩ := Bool.and_eq_true_iff.mp finite
      refine @Spells.enclosed n 0 least _ _ (fun m room => ?_) (by omega)
      exact .ifThen (condition 1 m finite (by omega)) (yes 1 m finite' (by omega))
        (no 1 m finite'' (by omega))

def Known (name : String) : Prop :=
  name = "x" ∨ name = "y" ∨ (∃ f : Unary, name = f.name) ∨ ∃ f : Choice, name = f.name

theorem not_known_nan : ¬ Known "NaN" := by
  rintro (same | same | ⟨f, same⟩ | ⟨f, same⟩)
  · revert same; decide
  · revert same; decide
  · revert same; cases f <;> decide
  · revert same; cases f <;> decide

theorem not_known_inf : ¬ Known "inf" := by
  rintro (same | same | ⟨f, same⟩ | ⟨f, same⟩)
  · revert same; decide
  · revert same; decide
  · revert same; cases f <;> decide
  · revert same; cases f <;> decide

theorem Spells.known {n : Nat} {phrase : Phrase} {ts : List Token} {e : Expr}
    (words : Spells n phrase ts e) {name : String} (member : Token.name name ∈ ts) :
    Known name := by
  induction words with
  | equality words induction => exact induction member
  | ifThen condition yes no first second third =>
      simp only [List.mem_append, List.mem_cons, reduceCtorEq, false_or, or_assoc] at member
      rcases member with member | member | member
      · exact first member
      · exact second member
      · exact third member
  | operand words induction => exact induction member
  | join op left right first second =>
      simp only [List.mem_append, List.mem_cons, reduceCtorEq, false_or] at member
      rcases member with member | member
      · exact first member
      · exact second member
  | number => simp at member
  | negative => simp at member
  | negation words unsigned induction =>
      simp only [List.mem_cons, reduceCtorEq, false_or] at member
      exact induction member
  | x =>
      simp only [List.mem_singleton, Token.name.injEq] at member
      exact .inl member
  | y =>
      simp only [List.mem_singleton, Token.name.injEq] at member
      exact .inr (.inl member)
  | call f argument induction =>
      simp only [List.mem_append, List.mem_cons, reduceCtorEq, false_or, Token.name.injEq,
        List.not_mem_nil, or_false] at member
      rcases member with same | member
      · exact .inr (.inr (.inl ⟨f, same⟩))
      · exact induction member
  | choose f first second induction induction' =>
      simp only [List.mem_append, List.mem_cons, reduceCtorEq, false_or, Token.name.injEq,
        List.not_mem_nil, or_false, or_assoc] at member
      rcases member with same | member | member
      · exact .inr (.inr (.inr ⟨f, same⟩))
      · exact induction member
      · exact induction' member
  | group words induction =>
      simp only [List.mem_append, List.mem_cons, reduceCtorEq, false_or,
        List.not_mem_nil, or_false] at member
      exact induction member

theorem mem_enclosed {inside : Bool} {t : Token} {ts : List Token} (member : t ∈ ts) :
    t ∈ enclosed inside ts := by
  cases inside with
  | false => exact member
  | true => simp [enclosed, member]

/-- A literal that is not finite is written as a name that nothing has. -/
theorem literalsFinite_of_known {e : Expr} (least : Nat)
    (known : ∀ name, Token.name name ∈ written least e → Known name) :
    e.literalsFinite = true := by
  induction e generalizing least with
  | literal v =>
      unfold written literalTokens at known
      by_contra infinite
      cases number : v.isNaN with
      | true =>
          rw [if_pos number] at known
          exact not_known_nan (known _ List.mem_cons_self)
      | false =>
          change ¬ Scalar.isFinite v = true at infinite
          rw [number, if_neg Bool.false_ne_true, if_neg infinite] at known
          exact not_known_inf (known _ (by simp))
  | coordinate c => rfl
  | call f a argument => exact argument 0 fun name member => known name (by simp [written, member])
  | choose f a b first second =>
      exact Bool.and_eq_true_iff.mpr
        ⟨first 0 fun name member => known name (by simp [written, member]),
          second 0 fun name member => known name (by simp [written, member])⟩
  | binary op a b left right =>
      exact Bool.and_eq_true_iff.mpr
        ⟨left op.strength fun name member => known name (mem_enclosed (by simp [member])),
          right (op.strength + 1) fun name member => known name (mem_enclosed (by simp [member]))⟩
  | ifThen c a b condition yes no =>
      exact Bool.and_eq_true_iff.mpr
        ⟨Bool.and_eq_true_iff.mpr
          ⟨condition 1 fun name member => known name (mem_enclosed (by simp [member])),
            yes 1 fun name member => known name (mem_enclosed (by simp [member]))⟩,
          no 1 fun name member => known name (mem_enclosed (by simp [member]))⟩

theorem ofTokens_written {stop : Nat} {placed : List Placed} {e t : Expr}
    (spelled : placed.map Placed.token = written 0 e) :
    ofTokens stop placed = .ok t ↔
      t = e ∧ e.depth ≤ greatestDepth ∧ e.literalsFinite = true := by
  constructor
  · intro read
    obtain ⟨words, shallow⟩ := ofTokens_eq_ok_iff.mp read
    rw [spelled] at words
    have finite := literalsFinite_of_known 0 fun name member => words.known member
    have own : Spells e.depth .condition (placed.map Placed.token) e := by
      rw [spelled]
      exact spells_written 0 e.depth finite (Nat.le_succ _)
    rcases passes_ofTokens stop own with read' | ⟨⟨error, refused⟩, -⟩
    · obtain rfl : t = e := Except.ok.inj (read.symm.trans read')
      exact ⟨rfl, shallow, finite⟩
    · rw [refused] at read
      cases read
  · rintro ⟨rfl, shallow, finite⟩
    refine ofTokens_eq_ok_iff.mpr ⟨?_, shallow⟩
    rw [spelled]
    exact spells_written 0 greatestDepth finite (Nat.le_succ_of_le shallow)

theorem ofText_of_lexes {offset : Nat} {cs : List Char} {e t : Expr}
    (lexed : Lexes cs [] (written 0 e)) :
    ofText offset cs = .ok t ↔
      t = e ∧ e.depth ≤ greatestDepth ∧ e.literalsFinite = true := by
  obtain ⟨stop, placed, spelled, read⟩ := lexed offset
  have whole : tokens offset cs = .ok placed := by
    rw [read, tokens.eq_def]
    simp [Except.map]
  unfold ofText
  rw [whole]
  exact ofTokens_written spelled

/-- The text of a tree reads as that tree and as no other, and it reads exactly when the tree is not too deep and
every literal is finite. -/
theorem parse_text (e t : Expr) :
    parse e.text = .ok t ↔ t = e ∧ e.depth ≤ 128 ∧ e.literalsFinite = true := by
  unfold parse text
  rw [String.toList_ofList]
  exact ofText_of_lexes (lexes_writeOnto e 0 [] .nil)

end DriftField.Expr
