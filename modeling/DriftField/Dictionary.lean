/-!
Dictionaries with text keys, kept as lists in strictly increasing order of their keys. The order of
texts by code points is also the order of their UTF-8 bytes.
-/

namespace DriftField

/-- Entries of a dictionary, in increasing order of keys. -/
abbrev Dictionary (α : Type) := List (String × α)

namespace Dictionary

variable {α : Type}

def insert (key : String) (value : α) : Dictionary α → Dictionary α
  | [] => [(key, value)]
  | (name, old) :: rest =>
      if key < name then (key, value) :: (name, old) :: rest
      else if key = name then (key, value) :: rest
      else (name, old) :: insert key value rest

def find? (key : String) : Dictionary α → Option α
  | [] => none
  | (name, value) :: rest => if key = name then some value else find? key rest

def erase (key : String) : Dictionary α → Dictionary α
  | [] => []
  | (name, value) :: rest => if key = name then rest else (name, value) :: erase key rest

/-- Enters pairs one after another, so that the last of several values under one key stays. -/
def ofPairs (pairs : List (String × α)) : Dictionary α :=
  pairs.foldl (fun d pair => insert pair.1 pair.2 d) []

def keys (d : Dictionary α) : List String := d.map Prod.fst

end Dictionary

end DriftField
