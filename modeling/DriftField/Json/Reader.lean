import DriftField.Json.Token
import DriftField.Json.Value
/-!
Reading JSON. A text is first read as a tree of spelled values, which settles its grammar. A spelled
value then becomes a `Json` value, or the fields of a record are taken out of it; members that the
record does not name are passed over whatever they spell.
-/

namespace DriftField.Json

inductive Spelled where
  | null
  | boolean (b : Bool)
  | number (n : Numeral)
  | quoted (letters : List Letter)
  | list (items : List Spelled)
  | object (members : List (List Letter × Spelled))

structure Reading (α : Type) (tokens : List Token) where
  value : α
  rest : List Token
  shorter : rest.length < tokens.length

namespace Reading

variable {α β : Type} {tokens : List Token}

def map (f : α → β) (r : Reading α tokens) : Reading β tokens := ⟨f r.value, r.rest, r.shorter⟩

def from_ {earlier : List Token} (r : Reading α tokens) (h : tokens.length ≤ earlier.length) :
    Reading α earlier := ⟨r.value, r.rest, Nat.lt_of_lt_of_le r.shorter h⟩

end Reading

mutual

/-- Reads one value in which lists and objects nest at most `depth` deep. -/
def readValue (depth : Nat) (tokens : List Token) : Option (Reading Spelled tokens) :=
  match tokens with
  | .null :: rest => some ⟨.null, rest, Nat.lt_succ_self _⟩
  | .boolean b :: rest => some ⟨.boolean b, rest, Nat.lt_succ_self _⟩
  | .number n :: rest => some ⟨.number n, rest, Nat.lt_succ_self _⟩
  | .quoted ls :: rest => some ⟨.quoted ls, rest, Nat.lt_succ_self _⟩
  | .openList :: .closeList :: rest =>
      if depth = 0 then none else some ⟨.list [], rest, Nat.lt_succ_of_lt (Nat.lt_succ_self _)⟩
  | .openList :: rest =>
      if depth = 0 then none
      else (readItems (depth - 1) rest).map fun r => (r.map .list).from_ (Nat.le_succ _)
  | .openObject :: .closeObject :: rest =>
      if depth = 0 then none else some ⟨.object [], rest, Nat.lt_succ_of_lt (Nat.lt_succ_self _)⟩
  | .openObject :: rest =>
      if depth = 0 then none
      else (readMembers (depth - 1) rest).map fun r => (r.map .object).from_ (Nat.le_succ _)
  | _ => none
termination_by (tokens.length, 0)

def readItems (depth : Nat) (tokens : List Token) : Option (Reading (List Spelled) tokens) :=
  match readValue depth tokens with
  | none => none
  | some ⟨item, .closeList :: rest, h⟩ => some ⟨[item], rest, by simp only [List.length_cons] at h; omega⟩
  | some ⟨item, .comma :: rest, h⟩ =>
      have : rest.length < tokens.length := by simp only [List.length_cons] at h; omega
      (readItems depth rest).map fun r => (r.map (item :: ·)).from_ (by omega)
  | some _ => none
termination_by (tokens.length, 1)

def readMembers (depth : Nat) (tokens : List Token) :
    Option (Reading (List (List Letter × Spelled)) tokens) :=
  match tokens with
  | .quoted name :: .colon :: tokens' =>
      match readValue depth tokens' with
      | none => none
      | some ⟨value, .closeObject :: rest, h⟩ =>
          some ⟨[(name, value)], rest, by simp only [List.length_cons] at h ⊢; omega⟩
      | some ⟨value, .comma :: rest, h⟩ =>
          have : rest.length < tokens'.length := by simp only [List.length_cons] at h; omega
          (readMembers depth rest).map fun r =>
            (r.map ((name, value) :: ·)).from_ (by simp only [List.length_cons]; omega)
      | some _ => none
  | _ => none
termination_by (tokens.length, 0)

end

def spelled? (depth : Nat) (text : String) : Option Spelled := do
  let tokens ← tokens? text.toList
  let r ← readValue depth tokens
  if r.rest.isEmpty then some r.value else none

/-! ### Values of numerals -/

def greatestWord : Nat := Text.wordBound - 1

/-- Appends digits to a significand for as long as it fits in a word; gives the digits left over. -/
def absorb (significand : Nat) : List Char → Nat × List Char
  | [] => (significand, [])
  | c :: rest =>
      let next := 10 * significand + (c.toNat - '0'.toNat)
      if greatestWord < next then (significand, c :: rest) else absorb next rest

def greatestPower : Nat := 308

def powerOfTen (n : Nat) : Float := Decimal.toFloat ⟨1, n⟩

/-- Scales a number by a power of ten, in steps that are binary64 numbers themselves; `none` when the
result is too large. -/
def scaled? (v : Float) (e : Int) : Option Float :=
  if e.natAbs ≤ greatestPower then
    if 0 ≤ e then
      let w := v * powerOfTen e.natAbs
      if Scalar.isFinite w then some w else none
    else some (v / powerOfTen e.natAbs)
  else if v == 0.0 then some v
  else if 0 ≤ e then none
  else scaled? (v / powerOfTen greatestPower) (e + greatestPower)
termination_by e.natAbs
decreasing_by simp only [greatestPower] at *; omega

/-- The value of a numeral. Without point and exponent it is a whole number when it fits in a signed or
an unsigned word. A fraction is the significand, cut to the digits that fit in a word, scaled by a power
of ten. -/
def Numeral.value? (n : Numeral) : Option Json :=
  let (leading, dropped) := absorb 0 n.wholeDigits
  match n.fractionDigits, n.exponent, dropped with
  | none, none, [] =>
      if !n.negative then some (.whole leading)
      else if leading = 0 || Text.wordBound / 2 < leading then some (.fraction (-leading.toUInt64.toFloat))
      else some (.whole (-leading))
  | after, exponent, dropped =>
      let digits := after.getD []
      let (significand, left) := absorb leading digits
      let e : Int := dropped.length - (digits.length - left.length : Nat) + exponent.getD 0
      (scaled? significand.toUInt64.toFloat e).map fun v =>
        .fraction (if n.negative then -v else v)

/-! ### Values of quoted texts -/

/-- The characters that letters spell. A unit of the first surrogate range needs one of the second range
after it, and the other way round. -/
def characters? : List Letter → Option (List Char)
  | [] => some []
  | .plain c :: rest => (characters? rest).map (c :: ·)
  | .unit high :: .unit low :: rest =>
      if 0xd800 ≤ high && high < 0xdc00 then
        if 0xdc00 ≤ low && low < 0xe000 then
          (characters? rest).map
            (Char.ofNat (0x10000 + (high - 0xd800) * 0x400 + (low - 0xdc00)) :: ·)
        else none
      else if 0xdc00 ≤ high && high < 0xe000 then none
      else (characters? (.unit low :: rest)).map (Char.ofNat high :: ·)
  | .unit n :: rest =>
      if 0xd800 ≤ n && n < 0xe000 then none else (characters? rest).map (Char.ofNat n :: ·)

def string? (letters : List Letter) : Option String := (characters? letters).map String.ofList

/-! ### Values of spelled values -/

mutual

/-- The value that is spelled. Of several members of one name the last counts. -/
def Spelled.value? : Spelled → Option Json
  | .null => some .null
  | .boolean b => some (.boolean b)
  | .number n => n.value?
  | .quoted ls => (Json.string? ls).map .text
  | .list items => (Spelled.values? items).map .list
  | .object members => (Spelled.members? members).map Json.record

def Spelled.values? : List Spelled → Option (List Json)
  | [] => some []
  | item :: rest => do
      let value ← item.value?
      let values ← Spelled.values? rest
      return value :: values

def Spelled.members? : List (List Letter × Spelled) → Option (List (String × Json))
  | [] => some []
  | (name, item) :: rest => do
      let name ← Json.string? name
      let value ← item.value?
      let members ← Spelled.members? rest
      return (name, value) :: members

end

def greatestDepth : Nat := 127

def read? (text : String) : Option Json := do
  let s ← spelled? greatestDepth text
  s.value?

/-! ### Records -/

namespace Spelled

def word? : Spelled → Option Nat
  | .number n => n.value?.bind Json.natural?
  | _ => none

def string? : Spelled → Option String
  | .quoted ls => Json.string? ls
  | _ => none

def named? : List (List Letter × Spelled) → Option (List (String × Spelled))
  | [] => some []
  | (name, item) :: rest => do
      let name ← Json.string? name
      let members ← named? rest
      return (name, item) :: members

def only? (name : String) (members : List (String × Spelled)) : Option Spelled :=
  match members.filter (·.1 == name) with
  | [(_, item)] => some item
  | _ => none

/-- The fields of a record, in the given order: from an object that has each of them once, or from a
list of exactly as many items. -/
def fields? (names : List String) : Spelled → Option (List Spelled)
  | .object members => do
      let members ← named? members
      names.mapM (only? · members)
  | .list items => if items.length = names.length then some items else none
  | _ => none

end Spelled

end DriftField.Json
