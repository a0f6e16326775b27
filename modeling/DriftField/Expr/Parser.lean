import DriftField.Expr.Token
/-!
Reading expressions. The grammar, from the weakest construct to the strongest:

    condition  := equality ( "?" equality ":" equality )?
    equality   := sum ( "==" sum )*
    sum        := product ( ( "+" | "-" ) product )*
    product    := primary ( ( "*" | "/" | "%" ) primary )*
    primary    := number | "-" number | "-" primary | "x" | "y"
                | name "(" condition ( "," condition )? ")" | "(" condition ")"

A minus sign before a number makes a negative literal; before anything else it multiplies by minus one.
Trees may be at most `greatestDepth` deep, and at most as many parentheses, arguments and negations may
be open at one place. The rules that may still open `n + 1` of them are built from those that may open
`n`, so no rule ever calls itself.
-/

namespace DriftField.Expr

/-- An expression read from the start of a list of tokens, its depth, and the tokens after it. -/
structure Parsed (tokens : List Placed) where
  tree : Expr
  depth : Nat
  rest : List Placed
  shorter : rest.length < tokens.length

abbrev Reader := (tokens : List Placed) → Except SourceError (Parsed tokens)

def startOf (stop : Nat) : List Placed → Nat
  | [] => stop
  | p :: _ => p.offset

/-- Accepts a tree that is not too deep. -/
def limited {tokens : List Placed} (offset : Nat) (p : Parsed tokens) :
    Except SourceError (Parsed tokens) :=
  if greatestDepth < p.depth then .error ⟨offset, .tooDeep⟩ else .ok p

def expect (stop : Nat) (m : Mark) (tokens : List Placed) :
    Except SourceError { rest : List Placed // rest.length < tokens.length } :=
  match tokens with
  | ⟨offset, .mark found⟩ :: rest =>
      if found = m then .ok ⟨rest, by simp⟩ else .error ⟨offset, .missing m.spelling⟩
  | ⟨offset, _⟩ :: _ => .error ⟨offset, .missing m.spelling⟩
  | [] => .error ⟨stop, .missing m.spelling⟩

def extend (operators : List Operator) (operand : Reader) {tokens : List Placed}
    (left : Parsed tokens) : Except SourceError (Parsed tokens) :=
  match h : left.rest with
  | ⟨offset, .operator op⟩ :: rest =>
      if op ∈ operators then
        match operand rest with
        | .error e => .error e
        | .ok right =>
            let depth := 1 + max left.depth right.depth
            if greatestDepth < depth then .error ⟨offset, .tooDeep⟩
            else
              have := left.shorter
              have := right.shorter
              extend operators operand
                ⟨.binary op left.tree right.tree, depth, right.rest, by simp_all; omega⟩
      else .ok left
  | _ => .ok left
termination_by left.rest.length
decreasing_by simp_all; omega

/-- A chain of operands joined from the left. -/
def chain (operators : List Operator) (operand : Reader) : Reader := fun tokens => do
  let first ← operand tokens
  extend operators operand first

def conditionOf (stop : Nat) (equality : Reader) : Reader := fun tokens => do
  let c ← equality tokens
  match h : c.rest with
  | ⟨_, .mark .question⟩ :: rest =>
      let a ← equality rest
      let colon ← expect stop .colon a.rest
      let b ← equality colon.1
      limited (startOf stop tokens)
        ⟨.ifThen c.tree a.tree b.tree, 1 + max (max c.depth a.depth) b.depth, b.rest, by
          have := c.shorter
          have := a.shorter
          have := colon.2
          have := b.shorter
          simp_all
          omega⟩
  | _ => .ok c

/-- The rules that stand at one place: what parentheses and arguments hold, and what a minus sign
negates. -/
structure Rules where
  condition : Reader
  primary : Reader

def opened (offset : Nat) : Option Rules → Except SourceError Rules
  | some rules => .ok rules
  | none => .error ⟨offset, .tooDeep⟩

def callOf (stop : Nat) (inner : Option Rules) (offset : Nat) (f : Unary) : Reader := fun tokens => do
  let inside ← expect stop .openParen tokens
  let rules ← opened offset inner
  let a ← rules.condition inside.1
  let close ← expect stop .closeParen a.rest
  limited offset ⟨.call f a.tree, a.depth + 1, close.1, by
    have := inside.2
    have := a.shorter
    have := close.2
    omega⟩

def chooseOf (stop : Nat) (inner : Option Rules) (offset : Nat) (f : Choice) : Reader :=
  fun tokens => do
    let inside ← expect stop .openParen tokens
    let rules ← opened offset inner
    let a ← rules.condition inside.1
    let comma ← expect stop .comma a.rest
    let b ← rules.condition comma.1
    let close ← expect stop .closeParen b.rest
    limited offset ⟨.choose f a.tree b.tree, 1 + max a.depth b.depth, close.1, by
      have := inside.2
      have := a.shorter
      have := comma.2
      have := b.shorter
      have := close.2
      omega⟩

def nameOf (stop : Nat) (inner : Option Rules) (offset : Nat) (name : String) :
    (tokens : List Placed) → Except SourceError (Parsed (⟨offset, .name name⟩ :: tokens)) :=
  fun tokens =>
    let longer (p : Parsed tokens) : Parsed (⟨offset, .name name⟩ :: tokens) :=
      ⟨p.tree, p.depth, p.rest, Nat.lt_succ_of_lt p.shorter⟩
    if name = "x" then .ok ⟨Expr.x, 1, tokens, by simp⟩
    else if name = "y" then .ok ⟨Expr.y, 1, tokens, by simp⟩
    else match Unary.ofName? name, Choice.ofName? name with
    | some f, _ => longer <$> callOf stop inner offset f tokens
    | none, some f => longer <$> chooseOf stop inner offset f tokens
    | none, none => .error ⟨offset, .unknownName name⟩

def primaryOf (stop : Nat) (inner : Option Rules) : Reader
  | [] => .error ⟨stop, .endOfText⟩
  | ⟨_, .number v⟩ :: rest => .ok ⟨.literal v, 1, rest, by simp⟩
  | ⟨_, .operator .sub⟩ :: ⟨_, .number v⟩ :: rest =>
      .ok ⟨.literal (-v), 1, rest, by simp only [List.length_cons]; omega⟩
  | ⟨offset, .operator .sub⟩ :: rest => do
      let rules ← opened offset inner
      let a ← rules.primary rest
      limited offset
        ⟨.binary .mul (.literal (-1.0)) a.tree, a.depth + 1, a.rest, Nat.lt_succ_of_lt a.shorter⟩
  | ⟨offset, .mark .openParen⟩ :: rest => do
      let rules ← opened offset inner
      let a ← rules.condition rest
      let close ← expect stop .closeParen a.rest
      .ok ⟨a.tree, a.depth, close.1, by
        have := a.shorter
        have := close.2
        simp
        omega⟩
  | ⟨offset, .name s⟩ :: rest => nameOf stop inner offset s rest
  | ⟨offset, _⟩ :: _ => .error ⟨offset, .noOperand⟩

def rulesOf (stop : Nat) (inner : Option Rules) : Rules where
  primary := primaryOf stop inner
  condition :=
    conditionOf stop <| chain [.eq] <| chain [.add, .sub] <| chain [.mul, .div, .rem] <|
      primaryOf stop inner

/-- The rules at a place where `room` more parentheses, arguments and negations may be opened. -/
def rulesAt (stop : Nat) : (room : Nat) → Rules
  | 0 => rulesOf stop none
  | room + 1 => rulesOf stop (some (rulesAt stop room))

def ofTokens (stop : Nat) (tokens : List Placed) : Except SourceError Expr := do
  let p ← (rulesAt stop greatestDepth).condition tokens
  match p.rest with
  | [] => .ok p.tree
  | extra :: _ => .error ⟨extra.offset, .trailingText⟩

/-- Reads an expression from a text whose first byte counts as byte `offset`. -/
def ofText (offset : Nat) (cs : List Char) : Except SourceError Expr := do
  let placed ← tokens offset cs
  ofTokens (offset + Text.byteLength cs) placed

def parse (text : String) : Except SourceError Expr := ofText 0 text.toList

end DriftField.Expr
