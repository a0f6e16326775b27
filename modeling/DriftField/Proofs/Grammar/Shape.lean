import Mathlib
import DriftField.Proofs.Expr.Source
import DriftField.Proofs.Grammar.Expansion
/-!
The shape of synthesized trees. They are built by the rules of their grammar alone, every node in them stands where the
rules put such nodes, and only their size keeps a field from being made of them.
-/

namespace DriftField

namespace Expr

def operands : Expr → List Expr
  | .literal _ | .coordinate _ => []
  | .call _ a => [a]
  | .choose _ a b | .binary _ a b => [a, b]
  | .ifThen c a b => [c, a, b]

/-- The tree at a place, which names the operand to take at each node on the way from the root. -/
def subtree? (e : Expr) : (place : List Nat) → Option Expr
  | [] => some e
  | i :: place => e.operands[i]?.bind fun a => a.subtree? place

theorem subtree?_append (e : Expr) (place rest : List Nat) :
    e.subtree? (place ++ rest) = (e.subtree? place).bind fun a => a.subtree? rest := by
  induction place generalizing e with
  | nil => rfl
  | cons i place induction =>
      simp only [List.cons_append, subtree?, Option.bind_assoc]
      exact Option.bind_congr fun a _ => induction a

/-- The tree at a place of `root` is one that may stand there: logarithms and roots are taken of absolute values, a root
also of the squared length, a tangent only inside sine and cosine, a choice is one between different trees, and all
else that is no coordinate, function or operation belongs to the choice by parity. -/
def Belongs (root : Expr) (place : List Nat) : Expr → Prop
  | .call .log a => ∃ b, a = .call .abs b
  | .call .sqrt a => (∃ b, a = .call .abs b) ∨ Expr.call .sqrt a = Production.length
  | .call .tan a => ∃ outer, place = outer ++ [0, 0] ∧ root.subtree? outer = some (Production.sinCosTan a)
  | .call .round a => ∃ outer, place = outer ++ [0, 0, 0] ∧ root.subtree? outer = some (Production.evenOdd a)
  | .choose _ a b => a ≠ b ∧ (a == b) = false
  | .binary .rem _ _ => ∃ outer a, place = outer ++ [0, 0] ∧ root.subtree? outer = some (Production.evenOdd a)
  | .binary .eq _ _ => ∃ outer a, place = outer ++ [0] ∧ root.subtree? outer = some (Production.evenOdd a)
  | .ifThen c a b => Expr.ifThen c a b = Production.evenOdd a
  | .literal v => ∃ outer a, root.subtree? outer = some (Production.evenOdd a) ∧
      (place = outer ++ [0, 0, 1] ∧ v = 2.0 ∨ place = outer ++ [0, 1] ∧ v = 0.0 ∨ place = outer ++ [2, 1] ∧ v = 1.0)
  | _ => True

def AllBelong (root : Expr) (place : List Nat) (e : Expr) : Prop :=
  ∀ rest t, e.subtree? rest = some t → Belongs root (place ++ rest) t

def Shaped (e : Expr) : Prop := AllBelong e [] e

theorem Belongs.within {root e t : Expr} {outer place : List Nat} (belongs : Belongs e place t)
    (found : root.subtree? outer = some e) : Belongs root (outer ++ place) t := by
  have deeper {inner : List Nat} {a : Expr} (found' : e.subtree? inner = some a) :
      root.subtree? (outer ++ inner) = some a := by
    rw [subtree?_append, found]
    exact found'
  unfold Belongs at belongs ⊢
  split at belongs
  · exact belongs
  · exact belongs
  · obtain ⟨inner, rfl, found'⟩ := belongs
    exact ⟨outer ++ inner, (List.append_assoc _ _ _).symm, deeper found'⟩
  · obtain ⟨inner, rfl, found'⟩ := belongs
    exact ⟨outer ++ inner, (List.append_assoc _ _ _).symm, deeper found'⟩
  · exact belongs
  · obtain ⟨inner, a, rfl, found'⟩ := belongs
    exact ⟨outer ++ inner, a, (List.append_assoc _ _ _).symm, deeper found'⟩
  · obtain ⟨inner, a, rfl, found'⟩ := belongs
    exact ⟨outer ++ inner, a, (List.append_assoc _ _ _).symm, deeper found'⟩
  · exact belongs
  · obtain ⟨inner, a, found', cases⟩ := belongs
    refine ⟨outer ++ inner, a, deeper found', ?_⟩
    simpa only [List.append_assoc, List.append_cancel_left_eq] using cases
  · trivial

theorem Shaped.within {root e : Expr} {place : List Nat} (shaped : e.Shaped) (found : root.subtree? place = some e) :
    AllBelong root place e :=
  fun rest t found' => (shaped rest t found').within found

theorem AllBelong.node {root e : Expr} {place : List Nat} (belongs : Belongs root place e)
    (operands : ∀ i a, e.operands[i]? = some a → AllBelong root (place ++ [i]) a) : AllBelong root place e := by
  intro rest t found
  cases rest with
  | nil =>
      cases found
      rwa [List.append_nil]
  | cons i rest =>
      obtain ⟨a, operand, found⟩ := Option.bind_eq_some_iff.mp found
      have belongs' := operands i a operand rest t found
      rwa [List.append_assoc, List.singleton_append] at belongs'

section Operands

variable {P : Nat → Expr → Prop} {a : Expr} {rest : List Expr}

theorem forall_operand_nil : ∀ i a, ([] : List Expr)[i]? = some a → P i a :=
  fun _ _ operand => by cases operand

theorem forall_operand_cons (first : P 0 a) (others : ∀ i b, rest[i]? = some b → P (i + 1) b) :
    ∀ i b, (a :: rest)[i]? = some b → P i b := by
  rintro (- | i) b operand
  · cases operand
    exact first
  · exact others i b operand

end Operands

section Nodes

variable {root a b c : Expr} {place : List Nat}

theorem AllBelong.literal {v : Float} (belongs : Belongs root place (.literal v)) :
    AllBelong root place (.literal v) :=
  .node belongs forall_operand_nil

theorem AllBelong.call {f : Unary} (belongs : Belongs root place (.call f a))
    (argument : AllBelong root (place ++ [0]) a) : AllBelong root place (.call f a) :=
  .node belongs (forall_operand_cons argument forall_operand_nil)

theorem AllBelong.binary {op : Operator} (belongs : Belongs root place (.binary op a b))
    (left : AllBelong root (place ++ [0]) a) (right : AllBelong root (place ++ [1]) b) :
    AllBelong root place (.binary op a b) :=
  .node belongs (forall_operand_cons left (forall_operand_cons right forall_operand_nil))

theorem AllBelong.choose {f : Choice} (belongs : Belongs root place (.choose f a b))
    (first : AllBelong root (place ++ [0]) a) (second : AllBelong root (place ++ [1]) b) :
    AllBelong root place (.choose f a b) :=
  .node belongs (forall_operand_cons first (forall_operand_cons second forall_operand_nil))

theorem AllBelong.ifThen (belongs : Belongs root place (.ifThen c a b))
    (condition : AllBelong root (place ++ [0]) c) (yes : AllBelong root (place ++ [1]) a)
    (no : AllBelong root (place ++ [2]) b) : AllBelong root place (.ifThen c a b) :=
  .node belongs
    (forall_operand_cons condition (forall_operand_cons yes (forall_operand_cons no forall_operand_nil)))

end Nodes

/-! Literals of shaped trees are numbers, and such a tree is the same as itself. -/

def LiteralsAll (P : Float → Prop) (e : Expr) : Prop := ∀ place v, e.subtree? place = some (.literal v) → P v

theorem LiteralsAll.operand {P : Float → Prop} {e a : Expr} (all : LiteralsAll P e) (i : Nat)
    (operand : e.operands[i]? = some a) : LiteralsAll P a :=
  fun place v found => all (i :: place) v (Option.bind_eq_some_iff.mpr ⟨a, operand, found⟩)

theorem literalsFinite_of_literalsAll {e : Expr} (finite : LiteralsAll (Scalar.isFinite · = true) e) :
    e.literalsFinite = true := by
  induction e with
  | literal v => exact finite [] v rfl
  | coordinate c => rfl
  | call f a argument => exact argument (finite.operand 0 rfl)
  | choose f a b first second =>
      exact Bool.and_eq_true_iff.mpr ⟨first (finite.operand 0 rfl), second (finite.operand 1 rfl)⟩
  | binary op a b left right =>
      exact Bool.and_eq_true_iff.mpr ⟨left (finite.operand 0 rfl), right (finite.operand 1 rfl)⟩
  | ifThen c a b condition yes no =>
      exact Bool.and_eq_true_iff.mpr
        ⟨Bool.and_eq_true_iff.mpr ⟨condition (finite.operand 0 rfl), yes (finite.operand 1 rfl)⟩,
          no (finite.operand 2 rfl)⟩

theorem same_self {e : Expr} (number : LiteralsAll (fun v => (v == v) = true) e) : (e == e) = true := by
  change same e e = true
  induction e with
  | literal v => exact number [] v rfl
  | coordinate c => exact beq_self_eq_true c
  | call f a argument => simp [same, argument (number.operand 0 rfl)]
  | choose f a b first second => simp [same, first (number.operand 0 rfl), second (number.operand 1 rfl)]
  | binary op a b left right => simp [same, left (number.operand 0 rfl), right (number.operand 1 rfl)]
  | ifThen c a b condition yes no =>
      simp [same, condition (number.operand 0 rfl), yes (number.operand 1 rfl), no (number.operand 2 rfl)]

namespace Shaped

variable {a b : Expr}

theorem literal_eq (shaped : Shaped a) : LiteralsAll (fun v => v = 2.0 ∨ v = 0.0 ∨ v = 1.0) a := by
  intro place v found
  obtain ⟨outer, c, -, ⟨-, two⟩ | ⟨-, zero⟩ | ⟨-, one⟩⟩ := shaped place (.literal v) found
  · exact .inl two
  · exact .inr (.inl zero)
  · exact .inr (.inr one)

theorem literalsFinite (shaped : Shaped a) : a.literalsFinite = true := by
  refine literalsFinite_of_literalsAll fun place v found => ?_
  obtain rfl | rfl | rfl := shaped.literal_eq place v found <;> decide

theorem same_self (shaped : Shaped a) : (a == a) = true := by
  refine Expr.same_self fun place v found => ?_
  obtain rfl | rfl | rfl := shaped.literal_eq place v found <;> decide

/-! The rules keep the shape. -/

theorem coordinate (c : Coordinate) : Shaped (.coordinate c) := AllBelong.node trivial forall_operand_nil

theorem call {f : Unary} (belongs : Belongs (.call f a) [] (.call f a)) (shaped : Shaped a) : Shaped (.call f a) :=
  AllBelong.call belongs (shaped.within rfl)

theorem binary {op : Operator} (belongs : Belongs (.binary op a b) [] (.binary op a b)) (left : Shaped a)
    (right : Shaped b) : Shaped (.binary op a b) :=
  AllBelong.binary belongs (left.within rfl) (right.within rfl)

theorem length : Shaped Production.length := by
  have square (c : Coordinate) : Shaped (.binary .mul (.coordinate c) (.coordinate c)) :=
    binary trivial (coordinate c) (coordinate c)
  exact call (.inr rfl) (binary trivial (square .x) (square .y))

theorem sinCosTan (shaped : Shaped a) : Shaped (Production.sinCosTan a) :=
  AllBelong.call trivial (.call trivial (.call ⟨[], rfl, rfl⟩ (shaped.within rfl)))

theorem sinRatio (left : Shaped a) (right : Shaped b) : Shaped (Production.sinRatio a b) :=
  call trivial (binary trivial left right)

theorem logAbs (shaped : Shaped a) : Shaped (Production.logAbs a) := call ⟨a, rfl⟩ (call trivial shaped)

theorem sqrtAbs (shaped : Shaped a) : Shaped (Production.sqrtAbs a) := call (.inl ⟨a, rfl⟩) (call trivial shaped)

theorem chooseOrSame {f : Choice} (first : Shaped a) (second : Shaped b) : Shaped (Production.chooseOrSame f a b) := by
  unfold Production.chooseOrSame
  split
  · exact first
  · next differ =>
    refine AllBelong.choose ⟨?_, Bool.eq_false_iff.mpr differ⟩ (first.within rfl) (second.within rfl)
    rintro rfl
    exact differ first.same_self

theorem evenOdd (shaped : Shaped a) : Shaped (Production.evenOdd a) := by
  have parity : AllBelong (Production.evenOdd a) [0, 0] (.binary .rem (.call .round a) (.literal 2.0)) :=
    .binary ⟨[], a, rfl, rfl⟩ (.call ⟨[], rfl, rfl⟩ (shaped.within rfl))
      (.literal ⟨[], a, rfl, .inl ⟨rfl, rfl⟩⟩)
  have zero : AllBelong (Production.evenOdd a) [0, 1] (.literal 0.0) :=
    .literal ⟨[], a, rfl, .inr (.inl ⟨rfl, rfl⟩)⟩
  have one : AllBelong (Production.evenOdd a) [2, 1] (.literal 1.0) :=
    .literal ⟨[], a, rfl, .inr (.inr ⟨rfl, rfl⟩)⟩
  exact AllBelong.ifThen rfl (.binary ⟨[], a, rfl, rfl⟩ parity zero) (shaped.within rfl)
    (.binary trivial (shaped.within rfl) one)

end Shaped

end Expr

/-- A property of trees that a production passes on from the parts to the whole. -/
def Production.Keeps (P : Expr → Prop) : Production → Prop
  | .terminal e => P e
  | .unary build => ∀ a, P a → P (build a)
  | .binary build => ∀ a b, P a → P b → P (build a b)

/-- The trees that are built by rules alone. -/
inductive Built (rules : List Rule) : Expr → Prop
  | terminal {rule : Rule} {e : Expr} (member : rule ∈ rules) (shape : rule.production = .terminal e) : Built rules e
  | unary {rule : Rule} {build : Expr → Expr} {a : Expr} (member : rule ∈ rules)
      (shape : rule.production = .unary build) (part : Built rules a) : Built rules (build a)
  | binary {rule : Rule} {build : Expr → Expr → Expr} {a b : Expr} (member : rule ∈ rules)
      (shape : rule.production = .binary build) (left : Built rules a) (right : Built rules b) : Built rules (build a b)

namespace Synthesis

variable {α : Type} [Weighing α] {rules : List Rule}

theorem Grown.built {w : Weights α} {opened : List Category} {stream after : Stream} {result : Except α Expr}
    {e : Expr} (grown : Grown rules w opened stream result after) (done : result = .ok e) : Built rules e := by
  induction grown generalizing e with
  | exhausted drawn => cases done
  | terminal drawn shape =>
      cases done
      exact .terminal (mem_of_picked drawn) shape
  | unary drawn shape _ part =>
      obtain ⟨a, came, rfl⟩ := exists_of_map_eq_ok done
      exact .unary (mem_of_picked drawn) shape (part came)
  | leftExhausted drawn shape _ left => cases done
  | binary drawn shape _ _ left right =>
      obtain ⟨b, came, rfl⟩ := exists_of_map_eq_ok done
      exact .binary (mem_of_picked drawn) shape (left rfl) (right came)

end Synthesis

theorem FormulaField.of?_eq_none_iff {c : Components} (finite : c.x.literalsFinite = true)
    (finite' : c.y.literalsFinite = true) :
    FormulaField.of? c = none ↔
      Components.greatestSize < c.size ∨ Expr.greatestDepth < c.x.depth ∨ Expr.greatestDepth < c.y.depth := by
  have sound : c.isSound = true ↔ c.size ≤ Components.greatestSize ∧ c.x.depth ≤ Expr.greatestDepth ∧
      c.y.depth ≤ Expr.greatestDepth := by
    rw [c.isSound_iff]
    simp only [finite, finite', and_true]
  unfold of?
  rw [dite_eq_right_iff]
  simp only [reduceCtorEq, imp_false]
  rw [sound]
  omega

namespace Synthesis

end Synthesis

end DriftField
