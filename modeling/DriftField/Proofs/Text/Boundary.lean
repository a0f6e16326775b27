import Mathlib
import DriftField.Text.Blank
/-!
Places in a text counted in bytes: those between two characters, and the ends.
-/

namespace DriftField.Text

theorem byteLength_eq (cs : List Char) : byteLength cs = String.utf8Len cs := by
  have added (n : Nat) : cs.foldl (fun n c => n + c.utf8Size) n = n + String.utf8Len cs := by
    induction cs generalizing n with
    | nil => rfl
    | cons c cs induction =>
        rw [List.foldl_cons, induction, String.utf8Len_cons]
        omega
  exact (added 0).trans (Nat.zero_add _)

@[simp] theorem byteLength_nil : byteLength [] = 0 := rfl

@[simp] theorem byteLength_cons (c : Char) (cs : List Char) : byteLength (c :: cs) = c.utf8Size + byteLength cs := by
  rw [byteLength_eq, byteLength_eq, String.utf8Len_cons, Nat.add_comm]

@[simp] theorem byteLength_append (cs ds : List Char) : byteLength (cs ++ ds) = byteLength cs + byteLength ds := by
  rw [byteLength_eq, byteLength_eq, byteLength_eq, String.utf8Len_append]

def Boundary (offset : Nat) (cs : List Char) (place : Nat) : Prop :=
  ∃ before after, cs = before ++ after ∧ place = offset + byteLength before

namespace Boundary

variable {offset place : Nat} {cs rest : List Char}

theorem first (offset : Nat) (cs : List Char) : Boundary offset cs offset := ⟨[], cs, rfl, rfl⟩

theorem last (offset : Nat) (cs : List Char) : Boundary offset cs (offset + byteLength cs) :=
  ⟨cs, [], (List.append_nil cs).symm, rfl⟩

theorem past (used : List Char) (boundary : Boundary (offset + byteLength used) rest place) :
    Boundary offset (used ++ rest) place := by
  obtain ⟨before, after, rfl, rfl⟩ := boundary
  refine ⟨used ++ before, after, (List.append_assoc _ _ _).symm, ?_⟩
  rw [byteLength_append, Nat.add_assoc]

theorem within (boundary : Boundary offset cs place) (rest : List Char) : Boundary offset (cs ++ rest) place := by
  obtain ⟨before, after, rfl, rfl⟩ := boundary
  exact ⟨before, after ++ rest, List.append_assoc _ _ _, rfl⟩

theorem isValid {text : String} (boundary : Boundary 0 text.toList place) : String.Pos.Raw.IsValid text ⟨place⟩ := by
  obtain ⟨before, after, split, rfl⟩ := boundary
  refine String.Pos.Raw.isValid_iff_exists_append.mpr ⟨String.ofList before, String.ofList after, ?_, ?_⟩
  · rw [← String.ofList_append, ← split, String.ofList_toList]
  · rw [byteLength_eq, Nat.zero_add, String.rawEndPos, String.utf8ByteSize_ofList]

theorem le_utf8ByteSize {text : String} (boundary : Boundary 0 text.toList place) : place ≤ text.utf8ByteSize :=
  boundary.isValid.le_rawEndPos

end Boundary

end DriftField.Text
