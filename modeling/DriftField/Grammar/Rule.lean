import DriftField.Expr.Basic
/-!
The rules from which random expressions are built, and the sets of rules that can finish one.
-/

namespace DriftField

inductive Category where
  | point
  | length
  | trigonometry
  | arithmetic
  | minMax
  | exponential
  | sign
  | evenOdd
  deriving DecidableEq, Repr

def Category.all : List Category :=
  [.point, .length, .trigonometry, .arithmetic, .minMax, .exponential, .sign, .evenOdd]

/-- What a rule builds, out of as many parts as it takes. -/
inductive Production where
  | terminal (e : Expr)
  | unary (build : Expr → Expr)
  | binary (build : Expr → Expr → Expr)

structure Rule where
  name : String
  category : Category
  production : Production

def Rule.isTerminal (r : Rule) : Bool := r.production matches .terminal _

namespace Production

open DriftField.Expr

def length : Expr := .call .sqrt (.binary .add (.binary .mul x x) (.binary .mul y y))

def sinCosTan (a : Expr) : Expr := .call .sin (.call .cos (.call .tan a))

def sinRatio (a b : Expr) : Expr := .call .sin (.binary .div a b)

def logAbs (a : Expr) : Expr := .call .log (.call .abs a)

def sqrtAbs (a : Expr) : Expr := .call .sqrt (.call .abs a)

def chooseOrSame (f : Choice) (a b : Expr) : Expr := if a == b then a else .choose f a b

/-- The expression where it rounds to an even number, elsewhere one more than it. -/
def evenOdd (a : Expr) : Expr :=
  .ifThen (.binary .eq (.binary .rem (.call .round a) (.literal 2.0)) (.literal 0.0)) a
    (.binary .add a (.literal 1.0))

end Production

/-- Every rule, in the order in which draws walk over them. -/
def Rule.all : List Rule :=
  [⟨"x", .point, .terminal Expr.x⟩,
    ⟨"y", .point, .terminal Expr.y⟩,
    ⟨"length", .length, .terminal Production.length⟩,
    ⟨"sin", .trigonometry, .unary (.call .sin)⟩,
    ⟨"cos", .trigonometry, .unary (.call .cos)⟩,
    ⟨"sin_cos_tan", .trigonometry, .unary Production.sinCosTan⟩,
    ⟨"sin_ratio", .trigonometry, .binary Production.sinRatio⟩,
    ⟨"mul", .arithmetic, .binary (.binary .mul)⟩,
    ⟨"div", .arithmetic, .binary (.binary .div)⟩,
    ⟨"add", .arithmetic, .binary (.binary .add)⟩,
    ⟨"sub", .arithmetic, .binary (.binary .sub)⟩,
    ⟨"log_abs", .exponential, .unary Production.logAbs⟩,
    ⟨"sqrt_abs", .exponential, .unary Production.sqrtAbs⟩,
    ⟨"abs", .sign, .unary (.call .abs)⟩,
    ⟨"sign", .sign, .unary (.call .sign)⟩,
    ⟨"min", .minMax, .binary (Production.chooseOrSame .min)⟩,
    ⟨"max", .minMax, .binary (Production.chooseOrSame .max)⟩,
    ⟨"even_odd", .evenOdd, .unary Production.evenOdd⟩]

/-- A set of rules with which an expression can be finished. -/
structure Grammar where
  rules : List Rule
  canFinish : rules.any Rule.isTerminal = true

namespace Grammar

/-- The rules of some categories, in their order; `none` when no rule among them is terminal. -/
def ofCategories? (categories : List Category) : Option Grammar :=
  let rules := Rule.all.filter (·.category ∈ categories)
  if h : rules.any Rule.isTerminal = true then some ⟨rules, h⟩ else none

def full : Grammar := ⟨Rule.all, rfl⟩

def pinned : Grammar := ⟨Rule.all.filter (·.category ∈ [.point, .arithmetic]), rfl⟩

end Grammar

end DriftField
