import Mathlib
import DriftField.Dictionary
/-!
Dictionaries as finite maps: what is found under a name after a change, and that the names stay in increasing order.
-/

namespace DriftField.Dictionary

variable {α : Type} {d : Dictionary α} {name key : String} {value : α}

@[simp] theorem find?_cons (name key : String) (value : α) (d : Dictionary α) :
    find? name ((key, value) :: d) = if name = key then some value else find? name d := rfl

theorem find?_insert (d : Dictionary α) (key : String) (value : α) (name : String) :
    find? name (insert key value d) = if name = key then some value else find? name d := by
  induction d with
  | nil => rfl
  | cons first rest induction =>
      obtain ⟨other, old⟩ := first
      unfold insert
      by_cases less : key < other
      · rw [if_pos less, find?_cons]
      · rw [if_neg less]
        by_cases same : key = other
        · subst same
          rw [if_pos rfl, find?_cons, find?_cons]
          split <;> rfl
        · rw [if_neg same, find?_cons, find?_cons, induction]
          by_cases hit : name = other
          · subst hit
            rw [if_pos rfl, if_pos rfl, if_neg (Ne.symm same)]
          · rw [if_neg hit, if_neg hit]

theorem mem_insert {entry : String × α} (member : entry ∈ insert key value d) :
    entry = (key, value) ∨ entry ∈ d := by
  induction d with
  | nil => exact .inl (List.mem_singleton.mp member)
  | cons first rest induction =>
      obtain ⟨other, old⟩ := first
      unfold insert at member
      split_ifs at member with less same
      · exact List.mem_cons.mp member
      · exact (List.mem_cons.mp member).imp_right (List.mem_cons_of_mem _)
      · rcases List.mem_cons.mp member with head | tail
        · exact .inr (List.mem_cons.mpr (.inl head))
        · exact (induction tail).imp_right (List.mem_cons_of_mem _)

theorem mem_of_find? (found : find? name d = some value) : (name, value) ∈ d := by
  induction d with
  | nil => cases found
  | cons first rest induction =>
      obtain ⟨other, old⟩ := first
      rw [find?_cons] at found
      split_ifs at found with same
      · cases found
        subst same
        exact List.mem_cons_self
      · exact List.mem_cons_of_mem _ (induction found)

theorem find?_eq_none (absent : ∀ entry ∈ d, entry.1 ≠ name) : find? name d = none := by
  cases found : find? name d with
  | none => rfl
  | some value => exact absurd rfl (absent _ (mem_of_find? found))

theorem find?_filter {keep : String × α → Bool} (kept : ∀ value, keep (name, value) = true) (d : Dictionary α) :
    find? name (d.filter keep) = find? name d := by
  induction d with
  | nil => rfl
  | cons first rest induction =>
      obtain ⟨other, old⟩ := first
      rw [List.filter_cons, find?_cons]
      split_ifs with keeps same same
      · rw [find?_cons, if_pos same]
      · rw [find?_cons, if_neg same, induction]
      · subst same
        exact absurd (kept old) keeps
      · exact induction

theorem mem_keys_iff : name ∈ keys d ↔ (find? name d).isSome = true := by
  induction d with
  | nil => exact ⟨nofun, nofun⟩
  | cons first rest induction =>
      obtain ⟨other, old⟩ := first
      rw [keys, List.map_cons, List.mem_cons, find?_cons, ← keys, induction]
      split_ifs with same
      · exact ⟨fun _ => rfl, fun _ => .inl same⟩
      · exact or_iff_right same

/-! ### The order of names -/

def Sorted (d : Dictionary α) : Prop := d.Pairwise fun first second => first.1 < second.1

theorem sorted_nil : Sorted ([] : Dictionary α) := List.Pairwise.nil

theorem Sorted.insert (sorted : Sorted d) (key : String) (value : α) : Sorted (insert key value d) := by
  induction d with
  | nil => exact List.pairwise_singleton _ _
  | cons first rest induction =>
      obtain ⟨other, old⟩ := first
      obtain ⟨least, sorted'⟩ := List.pairwise_cons.mp sorted
      unfold Dictionary.insert
      split_ifs with less same
      · refine List.pairwise_cons.mpr ⟨?_, sorted⟩
        rintro entry member
        rcases List.mem_cons.mp member with rfl | later
        · exact less
        · exact less.trans (least entry later)
      · subst same
        exact List.pairwise_cons.mpr ⟨least, sorted'⟩
      · refine List.pairwise_cons.mpr ⟨?_, induction sorted'⟩
        rintro entry member
        rcases mem_insert member with rfl | later
        · exact lt_of_le_of_ne (not_lt.mp less) (Ne.symm same)
        · exact least entry later

theorem erase_sublist (d : Dictionary α) (key : String) : (erase key d).Sublist d := by
  induction d with
  | nil => exact List.Sublist.refl _
  | cons first rest induction =>
      obtain ⟨other, old⟩ := first
      unfold erase
      split
      · exact List.sublist_cons_self _ _
      · exact induction.cons_cons _

theorem Sorted.erase (sorted : Sorted d) (key : String) : Sorted (erase key d) :=
  List.Pairwise.sublist (erase_sublist d key) sorted

theorem Sorted.find?_erase (sorted : Sorted d) (key name : String) :
    find? name (Dictionary.erase key d) = if name = key then none else find? name d := by
  induction d with
  | nil =>
      split <;> rfl
  | cons first rest induction =>
      obtain ⟨other, old⟩ := first
      obtain ⟨least, sorted'⟩ := List.pairwise_cons.mp sorted
      unfold Dictionary.erase
      split_ifs with same same' same'
      · subst same same'
        exact find?_eq_none fun entry member => (least entry member).ne'
      · subst same
        rw [find?_cons, if_neg same']
      · rw [find?_cons, induction sorted', if_pos same', if_neg]
        rintro rfl
        exact same same'.symm
      · rw [find?_cons, find?_cons, induction sorted', if_neg same']

/-! ### Entering pairs -/

theorem find?_foldl_insert {pairs : List (String × α)} (absent : ∀ pair ∈ pairs, pair.1 ≠ name)
    (d : Dictionary α) :
    find? name (pairs.foldl (fun d pair => insert pair.1 pair.2 d) d) = find? name d := by
  induction pairs generalizing d with
  | nil => rfl
  | cons pair pairs induction =>
      rw [List.foldl_cons, induction fun later member => absent later (List.mem_cons_of_mem _ member), find?_insert,
        if_neg (absent pair List.mem_cons_self).symm]

theorem find?_ofPairs {pairs : List (String × α)} (distinct : (pairs.map Prod.fst).Nodup)
    (member : (name, value) ∈ pairs) : find? name (ofPairs pairs) = some value := by
  unfold ofPairs
  generalize ([] : Dictionary α) = d
  induction pairs generalizing d with
  | nil => cases member
  | cons pair pairs induction =>
      rw [List.map_cons, List.nodup_cons] at distinct
      rw [List.foldl_cons]
      rcases List.mem_cons.mp member with rfl | later
      · rw [find?_foldl_insert, find?_insert, if_pos rfl]
        intro later member' same
        exact distinct.1 (List.mem_map.mpr ⟨later, member', same⟩)
      · exact induction distinct.2 later _

theorem mem_ofPairs {pairs : List (String × α)} {entry : String × α} (member : entry ∈ ofPairs pairs) :
    entry ∈ pairs := by
  suffices ∀ d : Dictionary α, entry ∈ pairs.foldl (fun d pair => insert pair.1 pair.2 d) d →
      entry ∈ pairs ∨ entry ∈ d from
    (this [] member).resolve_right List.not_mem_nil
  clear member
  intro d member
  induction pairs generalizing d with
  | nil => exact .inr member
  | cons pair pairs induction =>
      rw [List.foldl_cons] at member
      rcases induction _ member with later | entered
      · exact .inl (List.mem_cons_of_mem _ later)
      · rcases mem_insert entered with rfl | old
        · exact .inl List.mem_cons_self
        · exact .inr old

theorem sorted_ofPairs (pairs : List (String × α)) : Sorted (ofPairs pairs) := by
  unfold ofPairs
  have empty : Sorted ([] : Dictionary α) := sorted_nil
  generalize ([] : Dictionary α) = d at empty
  induction pairs generalizing d with
  | nil => exact empty
  | cons pair pairs induction => exact induction _ (empty.insert pair.1 pair.2)

theorem insert_of_greatest (greatest : ∀ entry ∈ d, entry.1 < key) : insert key value d = d ++ [(key, value)] := by
  induction d with
  | nil => rfl
  | cons first rest induction =>
      obtain ⟨other, old⟩ := first
      have less := greatest _ List.mem_cons_self
      unfold insert
      have greatest' : ∀ entry ∈ rest, entry.1 < key := fun entry member =>
        greatest entry (List.mem_cons_of_mem _ member)
      rw [if_neg less.asymm, if_neg less.ne', induction greatest']
      rfl

theorem Sorted.ofPairs_eq (sorted : Sorted d) : ofPairs d = d := by
  suffices ∀ before : Dictionary α, Sorted (before ++ d) →
      d.foldl (fun d pair => Dictionary.insert pair.1 pair.2 d) before = before ++ d from this [] sorted
  clear sorted
  intro before sorted
  induction d generalizing before with
  | nil => exact (List.append_nil _).symm
  | cons first rest induction =>
      have greatest : ∀ entry ∈ before, entry.1 < first.1 := fun entry member =>
        (List.pairwise_append.mp sorted).2.2 entry member first List.mem_cons_self
      rw [List.foldl_cons, insert_of_greatest greatest, induction, List.append_assoc, List.singleton_append]
      rwa [List.append_assoc, List.singleton_append]

end DriftField.Dictionary
