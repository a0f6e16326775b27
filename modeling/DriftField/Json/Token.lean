import DriftField.Text.Number
/-!
The tokens of JSON text. Numbers and quoted texts keep their spelling: whether a number is in range and
whether its surrogates are paired is settled only when their value is asked for.
-/

namespace DriftField.Json

/-- A character of a quoted text, or a 16-bit unit written as an escape. -/
inductive Letter where
  | plain (c : Char)
  | unit (n : Nat)

structure Numeral where
  negative : Bool
  wholeDigits : List Char
  fractionDigits : Option (List Char)
  exponent : Option Int

inductive Token where
  | openList
  | closeList
  | openObject
  | closeObject
  | comma
  | colon
  | null
  | boolean (b : Bool)
  | number (n : Numeral)
  | quoted (letters : List Letter)

/-- The four characters that may stand between tokens. -/
def isSpace (c : Char) : Bool := c = ' ' || c = '\n' || c = '\t' || c = '\r'

def unitOfDigits? (a b c d : Char) : Option Nat := do
  let a ← Text.hexValue? a
  let b ← Text.hexValue? b
  let c ← Text.hexValue? c
  let d ← Text.hexValue? d
  return ((a * 16 + b) * 16 + c) * 16 + d

def escape? (c : Char) : Option Char :=
  if c = '"' || c = '\\' || c = '/' then some c
  else if c = 'b' then some '\x08'
  else if c = 'f' then some '\x0c'
  else if c = 'n' then some '\n'
  else if c = 'r' then some '\r'
  else if c = 't' then some '\t'
  else none

def letters? : List Char → Option (List Letter × List Char)
  | '"' :: rest => some ([], rest)
  | '\\' :: 'u' :: a :: b :: c :: d :: rest =>
      match unitOfDigits? a b c d with
      | none => none
      | some n => (letters? rest).map fun r => (.unit n :: r.1, r.2)
  | '\\' :: c :: rest =>
      match escape? c with
      | none => none
      | some e => (letters? rest).map fun r => (.plain e :: r.1, r.2)
  | c :: rest =>
      if c.toNat < 0x20 then none
      else (letters? rest).map fun r => (.plain c :: r.1, r.2)
  | [] => none

theorem length_of_letters? {cs : List Char} {r : List Letter × List Char}
    (h : letters? cs = some r) : r.2.length < cs.length := by
  fun_induction letters? cs generalizing r with
  | case1 rest => cases h; simp
  | case2 => simp at h
  | case3 a b c d rest n hn ih =>
      obtain ⟨s, hs, rfl⟩ := Option.map_eq_some_iff.mp h
      have := ih hs
      simp; omega
  | case4 => simp at h
  | case5 c rest _ e he ih =>
      obtain ⟨s, hs, rfl⟩ := Option.map_eq_some_iff.mp h
      have := ih hs
      simp; omega
  | case6 => simp at h
  | case7 c rest _ _ _ _ ih =>
      obtain ⟨s, hs, rfl⟩ := Option.map_eq_some_iff.mp h
      have := ih hs
      simp; omega
  | case8 => simp at h

/-- The digits before the point: a single zero, or digits of which the first is not zero. -/
def wholeDigits? : List Char → Option (List Char × List Char)
  | [] => none
  | c :: rest =>
      if c = '0' then some (['0'], rest)
      else if Text.isDigit c then some (c :: rest.takeWhile Text.isDigit, rest.dropWhile Text.isDigit)
      else none

def digitRun? (cs : List Char) : Option (List Char × List Char) :=
  match cs.takeWhile Text.isDigit with
  | [] => none
  | ds => some (ds, cs.dropWhile Text.isDigit)

def fractionDigits? : List Char → Option (Option (List Char) × List Char)
  | '.' :: rest => (digitRun? rest).map fun r => (some r.1, r.2)
  | rest => some (none, rest)

def signedRun? : List Char → Option (Int × List Char)
  | '-' :: rest => (digitRun? rest).map fun r => (-(Text.valueOfDigits r.1 : Int), r.2)
  | '+' :: rest => (digitRun? rest).map fun r => ((Text.valueOfDigits r.1 : Int), r.2)
  | rest => (digitRun? rest).map fun r => ((Text.valueOfDigits r.1 : Int), r.2)

def exponent? : List Char → Option (Option Int × List Char)
  | [] => some (none, [])
  | c :: rest =>
      if c = 'e' || c = 'E' then (signedRun? rest).map fun r => (some r.1, r.2)
      else some (none, c :: rest)

def numeral? (negative : Bool) (cs : List Char) : Option (Numeral × List Char) :=
  match wholeDigits? cs with
  | none => none
  | some (ds, rest) =>
      match fractionDigits? rest with
      | none => none
      | some (fs, rest) =>
          (exponent? rest).map fun r => (⟨negative, ds, fs, r.1⟩, r.2)

private theorem length_dropDigits (cs : List Char) :
    (cs.dropWhile Text.isDigit).length ≤ cs.length :=
  (List.dropWhile_suffix Text.isDigit).length_le

private theorem length_of_digitRun? {cs : List Char} {r : List Char × List Char}
    (h : digitRun? cs = some r) : r.2.length ≤ cs.length := by
  unfold digitRun? at h
  split at h
  · simp at h
  · cases h; exact length_dropDigits cs

private theorem length_of_wholeDigits? {cs : List Char} {r : List Char × List Char}
    (h : wholeDigits? cs = some r) : r.2.length < cs.length := by
  unfold wholeDigits? at h
  split at h
  · simp at h
  · rename_i c rest
    split at h
    · cases h; simp
    · split at h
      · cases h
        exact Nat.lt_succ_of_le (length_dropDigits rest)
      · simp at h

private theorem length_of_fractionDigits? {cs : List Char} {r : Option (List Char) × List Char}
    (h : fractionDigits? cs = some r) : r.2.length ≤ cs.length := by
  unfold fractionDigits? at h
  split at h
  · obtain ⟨s, hs, rfl⟩ := Option.map_eq_some_iff.mp h
    exact Nat.le_succ_of_le (length_of_digitRun? hs)
  · cases h; exact Nat.le_refl _

private theorem length_of_signedRun? {cs : List Char} {r : Int × List Char}
    (h : signedRun? cs = some r) : r.2.length ≤ cs.length := by
  unfold signedRun? at h
  split at h
  all_goals
    obtain ⟨s, hs, rfl⟩ := Option.map_eq_some_iff.mp h
    have := length_of_digitRun? hs
    simp only [List.length_cons]; omega

private theorem length_of_exponent? {cs : List Char} {r : Option Int × List Char}
    (h : exponent? cs = some r) : r.2.length ≤ cs.length := by
  unfold exponent? at h
  split at h
  · cases h; exact Nat.le_refl _
  · split at h
    · obtain ⟨s, hs, rfl⟩ := Option.map_eq_some_iff.mp h
      exact Nat.le_succ_of_le (length_of_signedRun? hs)
    · cases h; exact Nat.le_refl _

theorem length_of_numeral? {negative : Bool} {cs : List Char} {r : Numeral × List Char}
    (h : numeral? negative cs = some r) : r.2.length < cs.length := by
  unfold numeral? at h
  split at h
  · simp at h
  · rename_i ds rest hw
    split at h
    · simp at h
    · rename_i fs rest' hf
      obtain ⟨s, hs, rfl⟩ := Option.map_eq_some_iff.mp h
      have h₁ := length_of_wholeDigits? hw
      have h₂ := length_of_fractionDigits? hf
      have h₃ := length_of_exponent? hs
      simp only at h₁ h₂ h₃ ⊢
      omega

/-- Splits JSON text into tokens; `none` where no token starts. -/
def tokens? : List Char → Option (List Token)
  | [] => some []
  | 'n' :: 'u' :: 'l' :: 'l' :: rest => (tokens? rest).map (.null :: ·)
  | 't' :: 'r' :: 'u' :: 'e' :: rest => (tokens? rest).map (.boolean true :: ·)
  | 'f' :: 'a' :: 'l' :: 's' :: 'e' :: rest => (tokens? rest).map (.boolean false :: ·)
  | '[' :: rest => (tokens? rest).map (.openList :: ·)
  | ']' :: rest => (tokens? rest).map (.closeList :: ·)
  | '\x7b' :: rest => (tokens? rest).map (.openObject :: ·)
  | '\x7d' :: rest => (tokens? rest).map (.closeObject :: ·)
  | ',' :: rest => (tokens? rest).map (.comma :: ·)
  | ':' :: rest => (tokens? rest).map (.colon :: ·)
  | '"' :: rest =>
      match h : letters? rest with
      | none => none
      | some r =>
          have := length_of_letters? h
          (tokens? r.2).map (.quoted r.1 :: ·)
  | '-' :: rest =>
      match h : numeral? true rest with
      | none => none
      | some r =>
          have := length_of_numeral? h
          (tokens? r.2).map (.number r.1 :: ·)
  | c :: rest =>
      if isSpace c then tokens? rest
      else
        match h : numeral? false (c :: rest) with
        | none => none
        | some r =>
            have := length_of_numeral? h
            (tokens? r.2).map (.number r.1 :: ·)
termination_by cs => cs.length
decreasing_by all_goals simp only [List.length_cons] at *; omega

end DriftField.Json
