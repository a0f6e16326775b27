/-!
Blank characters, trimming, cutting at a separator, and positions counted in bytes of the UTF-8 form.
-/

namespace DriftField.Text

/-- The characters with the White_Space property. -/
def isBlank (c : Char) : Bool :=
  let n := c.toNat
  (0x09 ≤ n && n ≤ 0x0d) || n == 0x20 || n == 0x85 || n == 0xa0 || n == 0x1680
    || (0x2000 ≤ n && n ≤ 0x200a) || n == 0x2028 || n == 0x2029 || n == 0x202f
    || n == 0x205f || n == 0x3000

def trimStart (text : List Char) : List Char := text.dropWhile isBlank

def trimEnd (text : List Char) : List Char := (text.reverse.dropWhile isBlank).reverse

def trim (text : List Char) : List Char := trimEnd (trimStart text)

def byteLength (text : List Char) : Nat := text.foldl (fun n c => n + c.utf8Size) 0

def cut? (separator : Char) (text : List Char) : Option (List Char × List Char) :=
  match text.dropWhile (· ≠ separator) with
  | [] => none
  | _ :: after => some (text.takeWhile (· ≠ separator), after)

theorem length_of_cut? {separator : Char} {text : List Char} {r : List Char × List Char}
    (h : cut? separator text = some r) : r.2.length < text.length := by
  unfold cut? at h
  split at h
  · simp at h
  · rename_i after hdrop
    cases h
    have := (List.dropWhile_suffix (l := text) (· ≠ separator)).length_le
    rw [hdrop] at this
    exact this

/-- Cuts a text at every separator; a text without one is a single piece. -/
def pieces (separator : Char) (text : List Char) : List (List Char) :=
  match h : cut? separator text with
  | none => [text]
  | some r =>
      have := length_of_cut? h
      r.1 :: pieces separator r.2
termination_by text.length

end DriftField.Text
