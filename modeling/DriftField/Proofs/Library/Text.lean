import Mathlib
import DriftField.Library
import DriftField.Proofs.Dictionary
import DriftField.Proofs.Json.Written
/-!
The text of a library reads back: every name, every source and every time of saving is spelled so that the reader finds
it again, and the members are in the order in which they are entered.
-/

namespace DriftField

open Json (lettersOf)

namespace SavedField

def spelled (f : SavedField) : Json.Spelled :=
  .object [(lettersOf "name", .quoted (lettersOf f.name)), (lettersOf "code", .quoted (lettersOf f.code)),
    (lettersOf "savedAt", .number (Json.numeralOf f.savedAt.toNat))]

theorem spelling?_toJson (f : SavedField) : Json.spelling? f.toJson = some f.spelled := rfl

theorem nesting_spelled (f : SavedField) : f.spelled.nesting = 1 := rfl

theorem word?_numeralOf (n : UInt64) : (Json.Spelled.number (Json.numeralOf n.toNat)).word? = some n.toNat := by
  have fits : n.toNat ≤ Json.greatestWord := Nat.le_sub_one_of_lt n.toNat_lt
  rw [Json.Spelled.word?, Json.value?_numeralOf fits]
  rfl

theorem ofSpelled?_spelled (f : SavedField) : ofSpelled? f.spelled = some f := by
  have fields : f.spelled.fields? ["name", "code", "savedAt"] = 
      some [.quoted (lettersOf f.name), .quoted (lettersOf f.code), .number (Json.numeralOf f.savedAt.toNat)] := by
    simp [spelled, Json.Spelled.fields?, Json.Spelled.named?, Json.string?_lettersOf, Json.Spelled.only?]
  simp [ofSpelled?, fields, Json.Spelled.string?, Json.string?_lettersOf, word?_numeralOf]

end SavedField

namespace Library

theorem get_eq_ok_iff {lib : Library} {name : String} {f : SavedField} :
    lib.get name = .ok f ↔ Dictionary.find? name lib = some f := by
  unfold get
  split <;> simp_all

theorem add_eq_ok_iff {lib new : Library} {f : SavedField} {overwrite : Bool} :
    lib.add f overwrite = .ok new ↔
      (overwrite = true ∨ Dictionary.find? f.name lib = none) ∧ Dictionary.insert f.name f lib = new := by
  unfold add
  cases overwrite <;> cases Dictionary.find? f.name lib <;> simp

def spelled (lib : Library) : List (List Json.Letter × Json.Spelled) :=
  lib.map fun entry => (lettersOf entry.1, entry.2.spelled)

theorem memberSpellings?_eq (lib : Library) :
    Json.memberSpellings? (lib.map fun entry => (entry.1, entry.2.toJson)) = some (spelled lib) := by
  induction lib with
  | nil => rfl
  | cons entry lib induction =>
      rw [List.map_cons, Json.memberSpellings?, SavedField.spelling?_toJson, induction]
      rfl

theorem memberNesting_spelled (lib : Library) : Json.Spelled.memberNesting (spelled lib) ≤ 1 := by
  induction lib with
  | nil => exact Nat.zero_le 1
  | cons entry lib induction => exact Nat.max_le.mpr ⟨entry.2.nesting_spelled.le, induction⟩

theorem ofMembers?_spelled (lib : Library) : ofMembers? (spelled lib) = some lib := by
  induction lib with
  | nil => rfl
  | cons entry lib induction =>
      rw [spelled, List.map_cons, ofMembers?, Json.string?_lettersOf, SavedField.ofSpelled?_spelled, ← spelled,
        induction]
      rfl

theorem two_le_length_toText (lib : Library) : 2 ≤ lib.toText.length := by
  rw [toText, Json.prettyText, String.length_ofList]
  cases lib with
  | nil => exact Nat.le_refl 2
  | cons entry lib =>
      rw [List.map_cons, Json.pretty, Json.lineBreak]
      simp

theorem ofText?_toText {lib : Library} (sorted : Dictionary.Sorted lib) : ofText? lib.toText = some lib := by
  have spelling : Json.spelling? (.object (lib.map fun entry => (entry.1, entry.2.toJson))) =
      some (.object (spelled lib)) := congrArg (Option.map _) (memberSpellings?_eq lib)
  have shallow : (Json.Spelled.object (spelled lib)).nesting ≤ lib.toText.length :=
    (Nat.succ_le_succ (memberNesting_spelled lib)).trans (two_le_length_toText lib)
  have read : Json.spelled? lib.toText.length lib.toText = some (.object (spelled lib)) :=
    Json.spelled?_prettyText spelling shallow
  rw [ofText?, read]
  simp [ofMembers?_spelled, sorted.ofPairs_eq]

theorem sorted_of_ofText? {lib : Library} {text : String} (parsed : ofText? text = some lib) :
    Dictionary.Sorted lib := by
  obtain ⟨s, -, parsed⟩ := Option.bind_eq_some_iff.mp parsed
  cases s with
  | object members =>
      obtain ⟨pairs, -, rfl⟩ := Option.map_eq_some_iff.mp parsed
      exact Dictionary.sorted_ofPairs pairs
  | _ => cases parsed

end Library

end DriftField
