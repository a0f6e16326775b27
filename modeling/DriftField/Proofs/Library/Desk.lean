import Mathlib
import DriftField.Proofs.Command.Library
import DriftField.Proofs.Text.Bytes
/-!
Libraries as finite maps. A library at a desk is changed, saved to files and loaded from them, in any order. What the
desk amounts to is remembered as a map from names to saved fields and one more such map for each file that was written;
after every sequence of operations the library answers as its map says.
-/

namespace DriftField.Library

open Command

/-- A library at hand, and the files it is saved to and loaded from. -/
structure Desk where
  library : Library
  disk : Disk

inductive Operation where
  | add (f : SavedField) (overwrite : Bool)
  | remove (name : String)
  | save (path : String)
  | load (path : String)

def Desk.take (desk : Desk) : Attempt (Option SavedField × Library) → Attempt (Option SavedField) × Desk
  | .ok (answer, lib) => (.ok answer, { desk with library := lib })
  | .error fault => (.error fault, desk)

/-- What an operation answers, and the desk after it. Only the removal of a field answers with a field. -/
def Operation.perform (desk : Desk) : Operation → Attempt (Option SavedField) × Desk
  | .add f overwrite => desk.take ((lift .library (desk.library.add f overwrite)).map fun lib => (none, lib))
  | .remove name =>
      desk.take ((lift .library (desk.library.remove name)).map fun taken => (some taken.1, taken.2))
  | .save path =>
      match desk.disk.write path (.text desk.library.toText) with
      | (.ok (), disk) => (.ok none, { desk with disk := disk })
      | (.error cause, disk) => (.error (.fault (.file path cause)), { desk with disk := disk })
  | .load path => desk.take ((LibraryAction.libraryOf desk.disk.read path).map fun lib => (none, lib))

/-! ### What operations mean -/

abbrev Fields := String → Option SavedField

/-- What a desk amounts to: the fields in the library, and those in each file that was written. -/
structure Memory where
  fields : Fields
  files : String → Option Fields

/-- The file that a path leads to, whatever there is in it. -/
def fileAt? (layout : Layout) (path : String) : Option String := (Disk.target ⟨layout, []⟩ path).toOption

/-- What an operation does if it succeeds. -/
def Operation.effect (layout : Layout) (memory : Memory) : Operation → Memory
  | .add f _ => { memory with fields := Function.update memory.fields f.name (some f) }
  | .remove name => { memory with fields := Function.update memory.fields name none }
  | .save path =>
      match fileAt? layout path with
      | some file => { memory with files := Function.update memory.files file (some memory.fields) }
      | none => memory
  | .load path => { memory with fields := ((fileAt? layout path).bind memory.files).getD fun _ => none }

/-- A desk together with the memory of the operations that succeeded there. -/
structure Session where
  desk : Desk
  memory : Memory

namespace Session

def start (layout : Layout) : Session := ⟨⟨Library.empty, ⟨layout, []⟩⟩, ⟨fun _ => none, fun _ => none⟩⟩

def step (layout : Layout) (s : Session) (op : Operation) : Session :=
  match op.perform s.desk with
  | (.ok _, desk) => ⟨desk, op.effect layout s.memory⟩
  | (.error _, desk) => ⟨desk, s.memory⟩

def after (layout : Layout) (ops : List Operation) : Session := ops.foldl (step layout) (start layout)

theorem memory_after {layout : Layout} {ops : List Operation} {op : Operation} {answer : Option SavedField}
    (done : (op.perform (after layout ops).desk).1 = .ok answer) :
    (after layout (ops ++ [op])).memory = op.effect layout (after layout ops).memory := by
  rw [after, List.foldl_concat, ← after, step]
  rcases performed : op.perform (after layout ops).desk with ⟨result, desk⟩
  rw [performed] at done
  cases done
  rfl

end Session

/-! ### Libraries and their maps -/

/-- A library holds just the given fields, each under its own name. -/
structure Holds (lib : Library) (fields : Fields) : Prop where
  sorted : Dictionary.Sorted lib
  find : ∀ name, Dictionary.find? name lib = fields name
  named : ∀ name f, fields name = some f → f.name = name

namespace Holds

variable {lib : Library} {fields : Fields}

theorem empty : Holds Library.empty fun _ => none := ⟨Dictionary.sorted_nil, fun _ => rfl, nofun⟩

theorem insert (holds : Holds lib fields) (f : SavedField) :
    Holds (Dictionary.insert f.name f lib) (Function.update fields f.name (some f)) where
  sorted := holds.sorted.insert f.name f
  find name := by
    rw [Dictionary.find?_insert, Function.update_apply, holds.find]
  named name g := by
    rw [Function.update_apply]
    split_ifs with same
    · rintro ⟨⟩
      exact same.symm
    · exact holds.named name g

theorem erase (holds : Holds lib fields) (name : String) :
    Holds (Dictionary.erase name lib) (Function.update fields name none) where
  sorted := holds.sorted.erase name
  find other := by
    rw [holds.sorted.find?_erase, Function.update_apply, holds.find]
  named other g := by
    rw [Function.update_apply]
    split_ifs with same
    · exact nofun
    · exact holds.named other g

theorem get_eq (holds : Holds lib fields) (name : String) :
    lib.get name = (fields name).elim (.error (.missing name)) .ok := by
  rw [get, holds.find]
  cases fields name <;> rfl

theorem add_eq (holds : Holds lib fields) (f : SavedField) (overwrite : Bool) :
    lib.add f overwrite =
      if !overwrite && (fields f.name).isSome then .error (.taken f.name)
      else .ok (Dictionary.insert f.name f lib) := by
  rw [add, holds.find]

theorem remove_eq (holds : Holds lib fields) (name : String) :
    lib.remove name =
      (fields name).elim (.error (.missing name)) fun f => .ok (f, Dictionary.erase name lib) := by
  rw [remove, holds.get_eq]
  cases fields name <;> rfl

theorem mem_names (holds : Holds lib fields) (name : String) : name ∈ lib.names ↔ (fields name).isSome = true := by
  rw [← holds.find]
  exact Dictionary.mem_keys_iff

theorem bytes_increase (holds : Holds lib fields) :
    lib.names.Pairwise fun first second => Text.bytes first < Text.bytes second :=
  List.Pairwise.map Prod.fst (fun _ _ => Text.bytes_lt_bytes) holds.sorted

end Holds

/-! ### Files -/

/-- What a file holds is the text of a library with the fields that were saved there. -/
def SavedAs (content : Content) (fields : Fields) : Prop :=
  ∃ lib, content = .text lib.toText ∧ Holds lib fields

structure Desk.Matches (desk : Desk) (layout : Layout) (memory : Memory) : Prop where
  layout_eq : desk.disk.toLayout = layout
  library : Holds desk.library memory.fields
  files : ∀ file, Option.Rel SavedAs (Dictionary.find? file desk.disk.files) (memory.files file)

theorem fileAt?_eq_some_iff {path file : String} (disk : Disk) :
    fileAt? disk.toLayout path = some file ↔ disk.target path = .ok file := by
  unfold fileAt?
  constructor
  · intro leads
    cases led : Disk.target ⟨disk.toLayout, []⟩ path with
    | error cause => simp [led, Except.toOption] at leads
    | ok other =>
        simp only [led, Except.toOption, Option.some.injEq] at leads
        exact leads ▸ Disk.target_eq_ok led disk.files
  · intro leads
    rw [Disk.target_eq_ok leads]
    rfl

theorem Operation.perform_save (desk : Desk) (path : String) :
    (save path).perform desk =
      match desk.disk.target path with
      | .ok file =>
          (.ok none, { desk with
            disk := { desk.disk with files := Dictionary.insert file (.text desk.library.toText) desk.disk.files } })
      | .error cause => (.error (.fault (.file path cause)), desk) := by
  rw [perform, Disk.write_text]
  cases desk.disk.target path <;> rfl

theorem Desk.take_error {desk : Desk} {attempt : Attempt (Option SavedField × Library)} {fault : CommandFault}
    (failed : (desk.take attempt).1 = .error fault) : (desk.take attempt).2 = desk := by
  cases attempt with
  | error _ => rfl
  | ok _ => cases failed

theorem Operation.desk_of_error {desk : Desk} {op : Operation} {fault : CommandFault}
    (failed : (op.perform desk).1 = .error fault) : (op.perform desk).2 = desk := by
  cases op with
  | add f overwrite => exact Desk.take_error failed
  | remove name => exact Desk.take_error failed
  | load path => exact Desk.take_error failed
  | save path =>
      rw [perform_save] at failed ⊢
      cases leads : desk.disk.target path with
      | error cause => rfl
      | ok file =>
          rw [leads] at failed
          cases failed

theorem Operation.effect_save {layout : Layout} {memory : Memory} {path file : String}
    (leads : fileAt? layout path = some file) :
    (save path).effect layout memory =
      { memory with files := Function.update memory.files file (some memory.fields) } := by
  simp only [effect, leads]

namespace Desk.Matches

variable {desk : Desk} {layout : Layout} {memory : Memory} {path file : String}

theorem fileAt?_iff (found : desk.Matches layout memory) :
    fileAt? layout path = some file ↔ desk.disk.target path = .ok file :=
  found.layout_eq ▸ fileAt?_eq_some_iff desk.disk

theorem libraryOf_eq (found : desk.Matches layout memory) (leads : fileAt? layout path = some file) :
    ∃ lib, LibraryAction.libraryOf desk.disk.read path = .ok lib ∧
      Holds lib ((memory.files file).getD fun _ => none) := by
  have read := Disk.read_of_target (found.fileAt?_iff.mp leads)
  have saved := found.files file
  -- The disk has the file just where the memory has fields for it.
  generalize memory.files file = fields at saved ⊢
  generalize Dictionary.find? file desk.disk.files = content at read saved
  cases saved with
  | none => exact ⟨Library.empty, LibraryAction.libraryOf_eq_ok_iff.mpr (.inl ⟨read, rfl⟩), Holds.empty⟩
  | some saved =>
      obtain ⟨lib, rfl, holds⟩ := saved
      exact ⟨lib, LibraryAction.libraryOf_eq_ok_iff.mpr (.inr ⟨_, read, ofText?_toText holds.sorted⟩), holds⟩

theorem holds_of_libraryOf (found : desk.Matches layout memory) {lib : Library}
    (loaded : LibraryAction.libraryOf desk.disk.read path = .ok lib) :
    Holds lib (((fileAt? layout path).bind memory.files).getD fun _ => none) := by
  cases leads : fileAt? layout path with
  | some file =>
      obtain ⟨lib', loaded', holds⟩ := found.libraryOf_eq leads
      rw [loaded] at loaded'
      cases loaded'
      exact holds
  | none =>
      -- A path that leads to no file can be loaded from only because nothing is there.
      rcases LibraryAction.libraryOf_eq_ok_iff.mp loaded with ⟨-, rfl⟩ | ⟨text, read, -⟩
      · exact Holds.empty
      · obtain ⟨file, -, leads', -⟩ := Disk.exists_target_of_read read
        rw [found.fileAt?_iff.mpr leads'] at leads
        cases leads

theorem files_save (found : desk.Matches layout memory) (file other : String) :
    Option.Rel SavedAs
      (Dictionary.find? other (Dictionary.insert file (.text desk.library.toText) desk.disk.files))
      (Function.update memory.files file (some memory.fields) other) := by
  rw [Dictionary.find?_insert, Function.update_apply]
  split_ifs
  · exact .some ⟨desk.library, rfl, found.library⟩
  · exact found.files other

theorem step (found : desk.Matches layout memory) (op : Operation) :
    (Session.step layout ⟨desk, memory⟩ op).desk.Matches layout (Session.step layout ⟨desk, memory⟩ op).memory := by
  unfold Session.step
  cases op with
  | add f overwrite =>
      rw [Operation.perform, found.library.add_eq]
      split_ifs
      · exact found
      · exact ⟨found.layout_eq, found.library.insert f, found.files⟩
  | remove name =>
      rw [Operation.perform, found.library.remove_eq]
      cases memory.fields name with
      | none => exact found
      | some f => exact ⟨found.layout_eq, found.library.erase name, found.files⟩
  | save path =>
      rw [Operation.perform_save]
      cases leads : desk.disk.target path with
      | error cause => exact found
      | ok file =>
          rw [Operation.effect_save (found.fileAt?_iff.mpr leads)]
          exact ⟨found.layout_eq, found.library, found.files_save file⟩
  | load path =>
      rw [Operation.perform]
      cases loaded : LibraryAction.libraryOf desk.disk.read path with
      | error fault => exact found
      | ok lib => exact ⟨found.layout_eq, found.holds_of_libraryOf loaded, found.files⟩

theorem after (layout : Layout) (ops : List Operation) :
    (Session.after layout ops).desk.Matches layout (Session.after layout ops).memory := by
  unfold Session.after
  -- By induction on the operations, from every session whose desk matches its memory.
  have start : (Session.start layout).desk.Matches layout (Session.start layout).memory :=
    ⟨rfl, Holds.empty, fun _ => .none⟩
  generalize Session.start layout = s at start
  induction ops generalizing s with
  | nil => exact start
  | cons op ops induction => exact induction _ (start.step op)

end Desk.Matches

/-! ### What the library answers -/

/-- A desk answers as its memory says. -/
structure Desk.Obeys (desk : Desk) (layout : Layout) (memory : Memory) : Prop where
  layout_eq : desk.disk.toLayout = layout
  get : ∀ name, desk.library.get name = (memory.fields name).elim (.error (.missing name)) .ok
  named : ∀ name f, memory.fields name = some f → f.name = name
  names_increase : desk.library.names.Pairwise fun first second => Text.bytes first < Text.bytes second
  mem_names : ∀ name, name ∈ desk.library.names ↔ (memory.fields name).isSome = true
  names_length : desk.library.names.length = desk.library.length
  /-- A name that is taken is given to another field only if that is asked for. -/
  add : ∀ f overwrite, ((Operation.add f overwrite).perform desk).1 =
    if !overwrite && (memory.fields f.name).isSome then .error (.fault (.library (.taken f.name)))
    else .ok none
  remove : ∀ name, ((Operation.remove name).perform desk).1 =
    (memory.fields name).elim (.error (.fault (.library (.missing name)))) fun f => .ok (some f)
  /-- A path in full leads to a file. -/
  leads : ∀ r : Route, r.Open layout → fileAt? layout r.text = some (r.full layout)
  /-- Files can be saved to and loaded from wherever a path leads to one. -/
  save : ∀ path, (fileAt? layout path).isSome = true → ((Operation.save path).perform desk).1 = .ok none
  load : ∀ path, (fileAt? layout path).isSome = true → ((Operation.load path).perform desk).1 = .ok none
  /-- What is loaded after it was saved is the library as it is. -/
  load_save : ∀ path, (fileAt? layout path).isSome = true →
    (Operation.load path).perform ((Operation.save path).perform desk).2 =
      (.ok none, ((Operation.save path).perform desk).2)
  unchanged : ∀ op fault, (Operation.perform desk op).1 = .error fault → (Operation.perform desk op).2 = desk

theorem Desk.Matches.obeys {desk : Desk} {layout : Layout} {memory : Memory}
    (found : desk.Matches layout memory) : desk.Obeys layout memory where
  layout_eq := found.layout_eq
  get := found.library.get_eq
  named := found.library.named
  names_increase := found.library.bytes_increase
  mem_names := found.library.mem_names
  names_length := List.length_map _
  add f overwrite := by
    rw [Operation.perform, found.library.add_eq]
    split_ifs <;> rfl
  remove name := by
    rw [Operation.perform, found.library.remove_eq]
    cases memory.fields name <;> rfl
  leads r plain := by
    obtain rfl := found.layout_eq
    exact (fileAt?_eq_some_iff desk.disk).mpr plain.target_text
  save path leads := by
    obtain ⟨file, leads⟩ := Option.isSome_iff_exists.mp leads
    rw [Operation.perform_save, found.fileAt?_iff.mp leads]
  load path leads := by
    obtain ⟨file, leads⟩ := Option.isSome_iff_exists.mp leads
    obtain ⟨lib, loaded, -⟩ := found.libraryOf_eq leads
    rw [Operation.perform, loaded]
    rfl
  load_save path leads := by
    obtain ⟨file, leads⟩ := Option.isSome_iff_exists.mp leads
    have leads := found.fileAt?_iff.mp leads
    rw [Operation.perform_save, leads]
    simp only [Operation.perform, LibraryAction.libraryOf_insert leads found.library.sorted]
    rfl
  unchanged _ _ failed := Operation.desk_of_error failed

/-- After every sequence of operations on an empty library a library answers as the map of what was added last. -/
theorem obeys_after (layout : Layout) (ops : List Operation) :
    (Session.after layout ops).desk.Obeys layout (Session.after layout ops).memory :=
  (Desk.Matches.after layout ops).obeys

/-- A field that was saved before it was removed is back once its file is loaded, also by another path to it. -/
theorem removed_field_loads :
    let f : SavedField := ⟨"swirl", "dx = sin(y)\ndy = \"cos(x)\"\n", 18446744073709551615⟩
    let added : List Operation := [.add f false]
    let saved := added ++ [.save "library.json"]
    let removed := saved ++ [.remove f.name]
    let loaded := removed ++ [.load "/home/user/library.json"]
    ((Operation.save "library.json").perform (Session.after .home added).desk).1 = .ok none ∧
      (Session.after .home removed).desk.library.get f.name = .error (.missing f.name) ∧
      ((Operation.load "/home/user/library.json").perform (Session.after .home removed).desk).1 = .ok none ∧
      (Session.after .home loaded).desk.library.get f.name = .ok f := by
  intro f added saved removed loaded
  have obeys := obeys_after .home
  have leads : fileAt? .home "library.json" = some "/home/user/library.json" :=
    (obeys []).leads ⟨false, [], "library.json"⟩ (by decide)
  have leads' : fileAt? .home "/home/user/library.json" = some "/home/user/library.json" :=
    (obeys []).leads ⟨true, ["home", "user"], "library.json"⟩ (by decide)
  -- Each operation succeeds, and leaves the memory that the next one starts from.
  have adds : ((Operation.add f false).perform (Session.after .home []).desk).1 = .ok none := (obeys []).add f false
  have memory : (Session.after .home added).memory =
      ⟨Function.update (fun _ => none) f.name (some f), fun _ => none⟩ := Session.memory_after adds
  have saves := (obeys added).save "library.json" (by rw [leads]; rfl)
  have memory_saved : (Session.after .home saved).memory = _ := Session.memory_after saves
  rw [Operation.effect_save leads, memory] at memory_saved
  have removes := (obeys saved).remove f.name
  simp only [memory_saved, Function.update_self, Option.elim_some] at removes
  have memory_removed : (Session.after .home removed).memory = _ := Session.memory_after removes
  rw [memory_saved] at memory_removed
  have missing := (obeys removed).get f.name
  simp only [memory_removed, Operation.effect, Function.update_self, Option.elim_none] at missing
  have loads := (obeys removed).load "/home/user/library.json" (by rw [leads']; rfl)
  have memory_loaded : (Session.after .home loaded).memory = _ := Session.memory_after loads
  have found := (obeys loaded).get f.name
  simp only [memory_loaded, memory_removed, Operation.effect, leads', Option.bind_some, Function.update_self,
    Option.getD_some, Option.elim_some] at found
  exact ⟨saves, missing, loads, found⟩

end DriftField.Library
