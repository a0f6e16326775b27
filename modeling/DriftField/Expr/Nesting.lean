import DriftField.Expr.Parser
/-!
Reading expressions with a counter. The rules are those of the parser, but a single counter runs along with them: it is
counted up for every parenthesis, argument and negation that is opened, and down again when what is inside has been read
or refused.
-/

namespace DriftField.Expr

def Parsed.single (tree : Expr) (head : Placed) (tokens : List Placed) : Parsed (head :: tokens) :=
  ⟨tree, 1, tokens, Nat.lt_succ_self _⟩

section
variable {tokens : List Placed}

theorem Parsed.shorter_past (head : Placed) (p : Parsed tokens) : p.rest.length < (head :: tokens).length :=
  Nat.lt_succ_of_lt p.shorter

def Parsed.past (head : Placed) (p : Parsed tokens) : Parsed (head :: tokens) :=
  ⟨p.tree, p.depth, p.rest, p.shorter_past head⟩

theorem shorter_of_branches {c : Parsed tokens} {offset : Nat} {rest : List Placed}
    (found : c.rest = ⟨offset, .mark .question⟩ :: rest) {a : Parsed rest}
    {colon : { rest : List Placed // rest.length < a.rest.length }} (b : Parsed colon.1) :
    b.rest.length < tokens.length := by
  have before := c.shorter
  rw [found, List.length_cons] at before
  have first := a.shorter
  have between := colon.2
  have second := b.shorter
  omega

variable {inside : { rest : List Placed // rest.length < tokens.length }} {a : Parsed inside.1}

theorem shorter_of_call (close : { rest : List Placed // rest.length < a.rest.length }) :
    close.1.length < tokens.length := by
  have opening := inside.2
  have argument := a.shorter
  have closing := close.2
  omega

theorem shorter_of_choose {comma : { rest : List Placed // rest.length < a.rest.length }} {b : Parsed comma.1}
    (close : { rest : List Placed // rest.length < b.rest.length }) : close.1.length < tokens.length := by
  have first := shorter_of_call comma
  have second := b.shorter
  have closing := close.2
  omega

end

/-- A reading that counts the parentheses, arguments and negations around it. -/
abbrev Counting := ExceptT SourceError (StateM Nat)

namespace Counting

abbrev Reader := (tokens : List Placed) → Counting (Parsed tokens)

structure Rules where
  condition : Reader
  primary : Reader

def nested {α : Type} (offset : Nat) (inner : Option Rules) (rule : Rules → Counting α) : Counting α := do
  if greatestDepth ≤ (← get) then throw ⟨offset, .tooDeep⟩
  let rules ← inner.getDM (throw ⟨offset, .tooDeep⟩)
  modify (· + 1)
  let result ← ExceptT.lift (rule rules).run
  modify (· - 1)
  MonadExcept.ofExcept result

/-- Joins a left operand with the operators among `operators` and the operands that follow it. -/
def extend (operators : List Operator) (operand : Reader) {tokens : List Placed}
    (left : Parsed tokens) : Counting (Parsed tokens) :=
  match h : left.rest with
  | ⟨offset, .operator op⟩ :: rest =>
      if op ∈ operators then do
        let right ← operand rest
        let depth := 1 + max left.depth right.depth
        if greatestDepth < depth then throw ⟨offset, .tooDeep⟩
        else
          have := left.shorter
          have := right.shorter
          extend operators operand
            ⟨.binary op left.tree right.tree, depth, right.rest, by simp_all; omega⟩
      else return left
  | _ => return left
termination_by left.rest.length
decreasing_by simp_all; omega

def chain (operators : List Operator) (operand : Reader) : Reader := fun tokens => do
  let first ← operand tokens
  extend operators operand first

def conditionOf (stop : Nat) (equality : Reader) : Reader := fun tokens => do
  let c ← equality tokens
  match h : c.rest with
  | ⟨_, .mark .question⟩ :: rest =>
      let a ← equality rest
      let colon ← MonadExcept.ofExcept (expect stop .colon a.rest)
      let b ← equality colon.1
      MonadExcept.ofExcept <| limited (startOf stop tokens)
        ⟨.ifThen c.tree a.tree b.tree, 1 + max (max c.depth a.depth) b.depth, b.rest, shorter_of_branches h b⟩
  | _ => return c

def callOf (stop : Nat) (inner : Option Rules) (offset : Nat) (f : Unary) : Reader := fun tokens => do
  let inside ← MonadExcept.ofExcept (expect stop .openParen tokens)
  let a ← nested offset inner (·.condition inside.1)
  let close ← MonadExcept.ofExcept (expect stop .closeParen a.rest)
  MonadExcept.ofExcept <| limited offset ⟨.call f a.tree, a.depth + 1, close.1, shorter_of_call close⟩

def chooseOf (stop : Nat) (inner : Option Rules) (offset : Nat) (f : Choice) : Reader :=
  fun tokens => do
    let inside ← MonadExcept.ofExcept (expect stop .openParen tokens)
    let a ← nested offset inner (·.condition inside.1)
    let comma ← MonadExcept.ofExcept (expect stop .comma a.rest)
    let b ← nested offset inner (·.condition comma.1)
    let close ← MonadExcept.ofExcept (expect stop .closeParen b.rest)
    MonadExcept.ofExcept <| limited offset
      ⟨.choose f a.tree b.tree, 1 + max a.depth b.depth, close.1, shorter_of_choose close⟩

def nameOf (stop : Nat) (inner : Option Rules) (offset : Nat) (name : String) :
    (tokens : List Placed) → Counting (Parsed (⟨offset, .name name⟩ :: tokens)) :=
  fun tokens =>
    if name = "x" then return .single Expr.x _ tokens
    else if name = "y" then return .single Expr.y _ tokens
    else match Unary.ofName? name, Choice.ofName? name with
    | some f, _ => Parsed.past _ <$> callOf stop inner offset f tokens
    | none, some f => Parsed.past _ <$> chooseOf stop inner offset f tokens
    | none, none => throw ⟨offset, .unknownName name⟩

def primaryOf (stop : Nat) (inner : Option Rules) : Reader
  | [] => throw ⟨stop, .endOfText⟩
  | ⟨_, .number v⟩ :: rest => return .single (.literal v) _ rest
  | ⟨_, .operator .sub⟩ :: ⟨_, .number v⟩ :: rest => return .past _ (.single (.literal (-v)) _ rest)
  | ⟨offset, .operator .sub⟩ :: rest => do
      let a ← nested offset inner (·.primary rest)
      let negated : Parsed rest := ⟨.binary .mul (.literal (-1.0)) a.tree, a.depth + 1, a.rest, a.shorter⟩
      MonadExcept.ofExcept <| limited offset (.past _ negated)
  | ⟨offset, .mark .openParen⟩ :: rest => do
      let a ← nested offset inner (·.condition rest)
      let close ← MonadExcept.ofExcept (expect stop .closeParen a.rest)
      return .past _ ⟨a.tree, a.depth, close.1, Nat.lt_trans close.2 a.shorter⟩
  | ⟨offset, .name s⟩ :: rest => nameOf stop inner offset s rest
  | ⟨offset, _⟩ :: _ => throw ⟨offset, .noOperand⟩

def rulesOf (stop : Nat) (inner : Option Rules) : Rules where
  primary := primaryOf stop inner
  condition :=
    conditionOf stop <| chain [.eq] <| chain [.add, .sub] <| chain [.mul, .div, .rem] <|
      primaryOf stop inner

/-- The rules with `levels` of rules inside each other. Where the counter refuses to go on first, further levels make no
difference. -/
def rulesAt (stop : Nat) : (levels : Nat) → Rules
  | 0 => rulesOf stop none
  | levels + 1 => rulesOf stop (some (rulesAt stop levels))

def ofTokens (stop : Nat) (tokens : List Placed) : Counting Expr := do
  let p ← (rulesAt stop greatestDepth).condition tokens
  match p.rest with
  | [] => return p.tree
  | extra :: _ => throw ⟨extra.offset, .trailingText⟩

def parse (text : String) : Except SourceError Expr := do
  let cs := text.toList
  let placed ← tokens 0 cs
  ((ofTokens (Text.byteLength cs) placed).run 0).1

end Counting

end DriftField.Expr
