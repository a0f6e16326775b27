/-!
Reproducible streams of random words. A stream is a 64-bit state that three shifts scramble; each draw
advances the state and reads it. All randomness is drawn from a stream that the caller supplies.
-/

namespace DriftField

structure Stream where
  state : UInt64
  deriving DecidableEq, Repr

namespace Stream

/-- The state that stands in for zero, which the scrambling would never leave. -/
def fallback : UInt64 := 0x5EEDDEADBEEFCAFE

def golden : UInt64 := 0x9E3779B97F4A7C15

def ofState (seed : UInt64) : Stream := ⟨if seed = 0 then fallback else seed⟩

def scramble (seed : UInt64) : UInt64 :=
  let z := seed + golden
  let z := (z ^^^ (z >>> 30)) * 0xBF58476D1CE4E5B9
  let z := (z ^^^ (z >>> 27)) * 0x94D049BB133111EB
  z ^^^ (z >>> 31)

/-- The stream of a seed that a person picks. Close seeds give unrelated streams. -/
def ofSeed (seed : UInt64) : Stream := ofState (scramble seed)

def step (s : UInt64) : UInt64 :=
  let s := s ^^^ (s <<< 13)
  let s := s ^^^ (s >>> 7)
  s ^^^ (s <<< 17)

def next (s : Stream) : Stream := ⟨step s.state⟩

end Stream

abbrev Draw := StateM Stream

namespace Draw

def word : Draw UInt64 := fun s => (s.next.state, s.next)

/-- The number in `[0, 1)` that the upper 53 bits of a word stand for. -/
def unitOfWord (w : UInt64) : Float := (w >>> 11).toFloat / 9007199254740992.0

def unit : Draw Float := unitOfWord <$> word

def between (low high : Float) : Draw Float := do
  let u ← unit
  return low + u * (high - low)

/-- Draws a whole number below `n`. The word is drawn also when there is no such number. -/
def below? (n : Nat) : Draw (Option Nat) := do
  let w ← word
  return if n = 0 then none else some (w.toNat % n)

def index (n : Nat) (positive : 0 < n) : Draw (Fin n) := do
  let w ← word
  return ⟨w.toNat % n, Nat.mod_lt _ positive⟩

/-- Draws an independent stream. Streams taken at one point under different salts differ. -/
def fork (salt : UInt64) : Draw Stream := do
  let w ← word
  return Stream.ofState (w ^^^ (salt * Stream.golden))

end Draw

end DriftField
