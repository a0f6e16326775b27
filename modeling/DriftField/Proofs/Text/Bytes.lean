import Mathlib
/-!
The order of texts by code points is the order of their UTF-8 bytes: the first byte in which the encodings of two
characters differ is smaller for the smaller character.
-/

namespace DriftField.Text

def bytes (s : String) : List UInt8 := s.toUTF8.data.toList

theorem bytes_eq (s : String) : bytes s = s.toList.flatMap String.utf8EncodeChar := by
  rw [bytes, String.toUTF8_eq_toByteArray, ← String.utf8Encode_toList, List.utf8Encode,
    List.data_toByteArray]

theorem ofNat_lt_iff {m n : Nat} (small : m < 256) (small' : n < 256) :
    UInt8.ofNat m < UInt8.ofNat n ↔ m < n := UInt8.ofNat_lt_iff_lt small small'

theorem ofNat_eq_iff {m n : Nat} (small : m < 256) (small' : n < 256) :
    UInt8.ofNat m = UInt8.ofNat n ↔ m = n := by
  rw [← UInt8.toNat_inj, UInt8.toNat_ofNat_of_lt' small, UInt8.toNat_ofNat_of_lt' small']

/-- The smaller of two numbers is smaller before its last digit, or there for the first time. -/
theorem div_lt_or_mod_lt {m n : Nat} (base : Nat) (less : m < n) :
    m / base < n / base ∨ m / base = n / base ∧ m % base < n % base := by
  rcases (Nat.div_le_div_right (c := base) less.le).lt_or_eq with above | same
  · exact .inl above
  · have first := Nat.div_add_mod m base
    have second := Nat.div_add_mod n base
    rw [same] at first
    exact .inr ⟨same, by omega⟩

theorem utf8EncodeChar_append_lt {c d : Char} (less : c < d) (r s : List UInt8) :
    String.utf8EncodeChar c ++ r < String.utf8EncodeChar d ++ s := by
  have less : c.val.toNat < d.val.toNat := less
  have bound : d.val.toNat < 0x110000 := by
    have valid : d.val.toNat < 0xd800 ∨ _ := d.valid
    omega
  unfold String.utf8EncodeChar
  generalize c.val.toNat = v at less
  generalize d.val.toNat = w at less bound
  -- The digits to base 64, from the last one up.
  have last := div_lt_or_mod_lt 64 less
  have third : v / 64 < w / 64 →
      v / 4096 < w / 4096 ∨ v / 4096 = w / 4096 ∧ v / 64 % 64 < w / 64 % 64 := by
    omega
  have second : v / 4096 < w / 4096 →
      v / 262144 < w / 262144 ∨ v / 262144 = w / 262144 ∧ v / 4096 % 64 < w / 4096 % 64 := by
    omega
  have lead : v / 262144 % 8 = v / 262144 := Nat.mod_eq_of_lt (by omega)
  have lead' : w / 262144 % 8 = w / 262144 := Nat.mod_eq_of_lt (by omega)
  dsimp only
  -- Encodings of different lengths differ in their first bytes already.
  split_ifs
  all_goals
    simp (disch := omega) only [List.cons_append, List.nil_append, List.cons_lt_cons_iff, ofNat_lt_iff,
      ofNat_eq_iff]
    omega

theorem utf8EncodeChar_ne_nil (c : Char) : String.utf8EncodeChar c ≠ [] := by
  unfold String.utf8EncodeChar
  dsimp only
  split_ifs <;> exact nofun

theorem flatMap_utf8EncodeChar_lt {cs ds : List Char} (less : cs < ds) :
    cs.flatMap String.utf8EncodeChar < ds.flatMap String.utf8EncodeChar := by
  induction less with
  | @nil d ds =>
      obtain ⟨byte, rest, encoded⟩ := List.exists_cons_of_ne_nil (utf8EncodeChar_ne_nil d)
      rw [List.flatMap_nil, List.flatMap_cons, encoded]
      exact List.nil_lt_cons _ _
  | rel less =>
      rw [List.flatMap_cons, List.flatMap_cons]
      exact utf8EncodeChar_append_lt less _ _
  | cons _ induction =>
      rw [List.flatMap_cons, List.flatMap_cons]
      exact List.append_left_lt induction

theorem bytes_lt_bytes {s t : String} (less : s < t) : bytes s < bytes t := by
  rw [bytes_eq, bytes_eq]
  exact flatMap_utf8EncodeChar_lt (String.lt_iff_toList_lt.mp less)

end DriftField.Text
