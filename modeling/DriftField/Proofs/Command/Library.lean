import Mathlib
import DriftField.Command.Run
import DriftField.Proofs.Command.Disk
import DriftField.Proofs.Command.Replay
import DriftField.Proofs.Library.Text
/-!
Actions on the library in a file are transactions: one that fails leaves the files as they were, and one that succeeds
leaves the library that it was to leave.
-/

namespace DriftField

open Command

namespace LibraryAction

variable {files : Files} {disk : Disk} {path file code name : String} {origin : FieldOrigin} {overwrite json : Bool}
  {now : UInt64} {old lib : Library} {a : Answer}

/-! ### The library in a file -/

theorem libraryOf_eq_ok_iff :
    libraryOf files path = .ok lib ↔
      files path = .error .absent ∧ Library.empty = lib ∨
        ∃ text, files path = .ok text ∧ Library.ofText? text = some lib := by
  unfold libraryOf
  split
  case h_3 text found => cases parsed : Library.ofText? text <;> simp_all
  all_goals simp_all

theorem sorted_of_libraryOf (loaded : libraryOf files path = .ok lib) : Dictionary.Sorted lib := by
  rcases libraryOf_eq_ok_iff.mp loaded with ⟨-, rfl⟩ | ⟨text, -, parsed⟩
  · exact Dictionary.sorted_nil
  · exact Library.sorted_of_ofText? parsed

theorem libraryOf_insert (leads : disk.target path = .ok file) (sorted : Dictionary.Sorted lib) :
    libraryOf (Disk.read { disk with files := Dictionary.insert file (.text lib.toText) disk.files }) path = .ok lib :=
  libraryOf_eq_ok_iff.mpr (.inr ⟨lib.toText, Disk.read_insert leads _, Library.ofText?_toText sorted⟩)

/-! ### Answers -/

/-- The source that is to be saved: a synthesized one, or the text of a file as it stands if it describes a field. -/
def Provides (files : Files) : FieldOrigin → String → Prop
  | .seed seed, code => ∃ c, synthesized .full seed = .ok c ∧ c.source = code
  | .file path, code => files path = .ok code ∧ ∃ field, FormulaField.ofSource code = .ok (some field)

theorem checkSource_eq_ok_iff :
    checkSource code = .ok () ↔ ∃ field, FormulaField.ofSource code = .ok (some field) := by
  unfold checkSource
  split <;> simp_all

theorem sourceOf_eq_ok_iff : sourceOf files origin = .ok code ↔ Provides files origin code := by
  cases origin with
  | seed seed =>
      constructor
      · intro done
        obtain ⟨c, drawn, done⟩ := exists_of_bind_eq_ok done
        exact ⟨c, drawn, Except.ok.inj done⟩
      · rintro ⟨c, drawn, rfl⟩
        rw [sourceOf, drawn]
        rfl
  | file path =>
      constructor
      · intro done
        obtain ⟨text, read, done⟩ := exists_of_bind_eq_ok done
        obtain ⟨⟨⟩, checked, done⟩ := exists_of_bind_eq_ok done
        cases done
        exact ⟨RenderRequest.ok_of_lift_eq_ok read, checkSource_eq_ok_iff.mp checked⟩
      · rintro ⟨read, checked⟩
        rw [sourceOf, textOf, read, lift]
        simp only [bind, Except.bind, checkSource_eq_ok_iff.mpr checked]
        rfl

/-- An action that gets as far as writing, and the library that it is to write if there is one. -/
inductive Prepared (files : Files) (now : UInt64) (file : String) : LibraryAction → Option Library → Prop
  | save {name code : String} {origin : FieldOrigin} {overwrite : Bool} {old : Library}
      (loaded : libraryOf files file = .ok old) (provided : Provides files origin code)
      (free : overwrite = true ∨ Dictionary.find? name old = none) :
      Prepared files now file (.save name origin overwrite)
        (some (Dictionary.insert name ⟨name, code, now⟩ old))
  | load {name : String} {old : Library} {f : SavedField} (loaded : libraryOf files file = .ok old)
      (found : Dictionary.find? name old = some f) : Prepared files now file (.load name) none
  | list {old : Library} (loaded : libraryOf files file = .ok old) : Prepared files now file .list none
  | delete {name : String} {old : Library} {f : SavedField} (loaded : libraryOf files file = .ok old)
      (found : Dictionary.find? name old = some f) :
      Prepared files now file (.delete name) (some (Dictionary.erase name old))

/-- An action answers just when it is prepared to write what its answer says. -/
theorem prepared_of_answer {action : LibraryAction} (answered : action.answer json files now file = .ok a) :
    ∃ new, Prepared files now file action new ∧ a.write = new.map fun lib => (file, .text lib.toText) := by
  obtain ⟨old, loaded, answered⟩ := exists_of_bind_eq_ok answered
  cases action with
  | save name origin overwrite =>
      obtain ⟨code, provided, answered⟩ := exists_of_bind_eq_ok answered
      obtain ⟨lib, added, answered⟩ := exists_of_bind_eq_ok answered
      obtain ⟨free, rfl⟩ := Library.add_eq_ok_iff.mp (RenderRequest.ok_of_lift_eq_ok added)
      cases answered
      exact ⟨_, .save loaded (sourceOf_eq_ok_iff.mp provided) free, rfl⟩
  | load name =>
      obtain ⟨f, got, answered⟩ := exists_of_bind_eq_ok answered
      cases answered
      exact ⟨_, .load loaded (Library.get_eq_ok_iff.mp (RenderRequest.ok_of_lift_eq_ok got)), rfl⟩
  | list =>
      cases answered
      exact ⟨_, .list loaded, rfl⟩
  | delete name =>
      obtain ⟨⟨f, lib⟩, removed, answered⟩ := exists_of_bind_eq_ok answered
      obtain ⟨f, got, taken⟩ := exists_of_bind_eq_ok (RenderRequest.ok_of_lift_eq_ok removed)
      cases taken
      cases answered
      exact ⟨_, .delete loaded (Library.get_eq_ok_iff.mp got), rfl⟩

theorem answer_of_prepared {action : LibraryAction} {new : Option Library} (json : Bool)
    (prepared : Prepared files now file action new) : ∃ a, action.answer json files now file = .ok a := by
  cases prepared with
  | @save name code _ _ _ loaded provided free =>
      have added := (Library.add_eq_ok_iff (f := ⟨name, code, now⟩)).mpr ⟨free, rfl⟩
      simp only [answer, loaded, sourceOf_eq_ok_iff.mpr provided, added, lift, bind, Except.bind]
      exact ⟨_, rfl⟩
  | load loaded found =>
      simp only [answer, loaded, Library.get_eq_ok_iff.mpr found, lift, bind, Except.bind]
      exact ⟨_, rfl⟩
  | list loaded =>
      simp only [answer, loaded, bind, Except.bind]
      exact ⟨_, rfl⟩
  | delete loaded found =>
      simp only [answer, loaded, Library.remove, Library.get_eq_ok_iff.mpr found, lift, bind, Except.bind]
      exact ⟨_, rfl⟩

/-! ### Transactions -/

/-- What an action asks for, besides a library in its file: an unused name or leave to replace its field, a source and
a file to write, or a field of the name. -/
def Admitted (disk : Disk) (file : String) (old : Library) : LibraryAction → Prop
  | .save name origin overwrite =>
      (overwrite = true ∨ Dictionary.find? name old = none) ∧ (∃ code, Provides disk.read origin code) ∧
        ∃ target, disk.target file = .ok target
  | .load name | .delete name => ∃ f, Dictionary.find? name old = some f
  | .list => True

/-- Only the file that a path leads to has changed, and it now holds a library. -/
structure Rewritten (path : String) (disk after : Disk) (lib : Library) : Prop where
  loads : libraryOf after.read path = .ok lib
  layout_eq : after.toLayout = disk.toLayout
  elsewhere : ∀ file, disk.target path ≠ .ok file → Dictionary.find? file after.files = Dictionary.find? file disk.files

def Settled (now : UInt64) (file : String) (disk after : Disk) (old : Library) : LibraryAction → Prop
  | .save name origin _ =>
      ∃ code new, Provides disk.read origin code ∧ Rewritten file disk after new ∧
        ∀ other, Dictionary.find? other new =
          if other = name then some ⟨name, code, now⟩ else Dictionary.find? other old
  | .delete name =>
      ∃ new, Rewritten file disk after new ∧
        ∀ other, Dictionary.find? other new = if other = name then none else Dictionary.find? other old
  | .load _ | .list => after = disk

theorem rewritten_insert (leads : disk.target path = .ok file) (sorted : Dictionary.Sorted lib) :
    Rewritten path disk { disk with files := Dictionary.insert file (.text lib.toText) disk.files } lib where
  loads := libraryOf_insert leads sorted
  layout_eq := rfl
  elsewhere other away := by
    rw [Dictionary.find?_insert, if_neg]
    rintro rfl
    exact away leads

variable {action : LibraryAction} {target : String}

theorem prepared_of_admitted (loaded : libraryOf disk.read file = .ok old) (admitted : action.Admitted disk file old)
    (now : UInt64) : ∃ new, Prepared disk.read now file action new := by
  cases action with
  | save name origin overwrite =>
      obtain ⟨free, ⟨code, provided⟩, -⟩ := admitted
      exact ⟨_, .save loaded provided free⟩
  | load name =>
      obtain ⟨f, found⟩ := admitted
      exact ⟨_, .load loaded found⟩
  | list => exact ⟨_, .list loaded⟩
  | delete name =>
      obtain ⟨f, found⟩ := admitted
      exact ⟨_, .delete loaded found⟩

theorem exists_target_of_admitted (prepared : Prepared disk.read now file action (some lib))
    (loaded : libraryOf disk.read file = .ok old) (admitted : action.Admitted disk file old) :
    ∃ target, disk.target file = .ok target := by
  cases prepared with
  | save => exact admitted.2.2
  | delete =>
      -- The field that is to go was read from the file, so the file is there.
      obtain ⟨f, found⟩ := admitted
      rcases libraryOf_eq_ok_iff.mp loaded with ⟨-, rfl⟩ | ⟨text, read, -⟩
      · cases found
      · obtain ⟨target, -, leads, -⟩ := Disk.exists_target_of_read read
        exact ⟨target, leads⟩

theorem settled_of_silent (prepared : Prepared disk.read now file action none) :
    ∃ old, libraryOf disk.read file = .ok old ∧ action.Admitted disk file old ∧
      action.Settled now file disk disk old := by
  cases prepared with
  | load loaded found => exact ⟨_, loaded, ⟨_, found⟩, rfl⟩
  | list loaded => exact ⟨_, loaded, trivial, rfl⟩

theorem settled_of_written (prepared : Prepared disk.read now file action (some lib))
    (leads : disk.target file = .ok target) :
    ∃ old, libraryOf disk.read file = .ok old ∧ action.Admitted disk file old ∧
      action.Settled now file disk { disk with files := Dictionary.insert target (.text lib.toText) disk.files }
        old := by
  cases prepared with
  | @save name code _ _ _ loaded provided free =>
      have sorted := (sorted_of_libraryOf loaded).insert name ⟨name, code, now⟩
      exact ⟨_, loaded, ⟨free, ⟨_, provided⟩, _, leads⟩, _, _, provided, rewritten_insert leads sorted,
        fun other => Dictionary.find?_insert _ _ _ other⟩
  | delete loaded found =>
      have sorted := sorted_of_libraryOf loaded
      exact ⟨_, loaded, ⟨_, found⟩, _, rewritten_insert leads (sorted.erase _),
        fun other => sorted.find?_erase _ other⟩

end LibraryAction

theorem CommandFault.exitCode_ne_zero (f : CommandFault) : f.exitCode ≠ 0 := by
  unfold exitCode
  split <;> decide

namespace Invocation

variable {i : Invocation} {now : UInt64} {disk : Disk} {a : Answer} {f : CommandFault} {path text : String}

theorem perform_of_error (failed : i.command.answer i.json disk.read now = .error f) :
    i.perform now disk = (.failure i.json f, disk) := by
  rw [perform, failed]

theorem perform_of_silent (answered : i.command.answer i.json disk.read now = .ok a) (silent : a.write = none) :
    i.perform now disk = (.success a, disk) := by
  simp only [perform, answered, silent]

theorem perform_of_text (answered : i.command.answer i.json disk.read now = .ok a)
    (written : a.write = some (path, .text text)) :
    i.perform now disk =
      match disk.target path with
      | .error cause => (.failure i.json (.fault (.file path cause)), disk)
      | .ok file => (.success a, { disk with files := Dictionary.insert file (.text text) disk.files }) := by
  simp only [perform, answered, written, Disk.write_text]
  cases disk.target path <;> rfl

/-- An action on the library in a file succeeds just when it is admitted, and then has done what it was to do. One that
fails leaves all files as they were. -/
theorem library_transaction (json : Bool) (file : String) (action : LibraryAction) (now : UInt64) (disk : Disk) :
    let (outcome, after) := Invocation.perform ⟨json, .library file action⟩ now disk
    if outcome.code = 0 then
      ∃ old, LibraryAction.libraryOf disk.read file = .ok old ∧ action.Admitted disk file old ∧
        action.Settled now file disk after old
    else
      after = disk ∧
        ∀ old, LibraryAction.libraryOf disk.read file = .ok old → ¬action.Admitted disk file old := by
  -- There may be no answer, nothing to write, or no file to write to.
  cases answered : action.answer json disk.read now file with
  | error f =>
      rw [perform_of_error (i := ⟨json, .library file action⟩) answered]
      simp only [Outcome.failure, f.exitCode_ne_zero, if_false]
      refine ⟨trivial, fun old loaded admitted => ?_⟩
      obtain ⟨new, prepared⟩ := LibraryAction.prepared_of_admitted loaded admitted now
      obtain ⟨a, answered'⟩ := LibraryAction.answer_of_prepared json prepared
      rw [answered] at answered'
      cases answered'
  | ok a =>
      obtain ⟨new, prepared, written⟩ := LibraryAction.prepared_of_answer answered
      cases new with
      | none =>
          rw [perform_of_silent (i := ⟨json, .library file action⟩) answered written]
          exact LibraryAction.settled_of_silent prepared
      | some lib =>
          rw [perform_of_text (i := ⟨json, .library file action⟩) answered written]
          cases leads : disk.target file with
          | error cause =>
              simp only [Outcome.failure, CommandFault.exitCode_ne_zero, if_false]
              refine ⟨trivial, fun old loaded admitted => ?_⟩
              obtain ⟨target, leads'⟩ := LibraryAction.exists_target_of_admitted prepared loaded admitted
              rw [leads] at leads'
              cases leads'
          | ok target => exact LibraryAction.settled_of_written prepared leads

/-- A field is saved from a file beside one that is there, and the other one is deleted. -/
theorem save_and_delete :
    let still : SavedField := ⟨"still", "dx = 0\ndy = 0\n", 1⟩
    let turning : SavedField := ⟨"turning", "dx = y\n\n  dy = -x", 2⟩
    let disk : Disk := ⟨.home, [("/home/user/fields.json", .text (Library.toText [(still.name, still)])),
      ("/home/user/turning.txt", .text turning.code)]⟩
    let (saved, between) :=
      Invocation.perform ⟨true, .library "fields.json" (.save turning.name (.file "turning.txt") false)⟩ 2 disk
    let (deleted, after) := Invocation.perform ⟨true, .library "fields.json" (.delete still.name)⟩ 3 between
    saved.code = 0 ∧ deleted.code = 0 ∧
      ∃ both one, LibraryAction.libraryOf between.read "fields.json" = .ok both ∧
        Dictionary.find? still.name both = some still ∧ Dictionary.find? turning.name both = some turning ∧
        LibraryAction.libraryOf after.read "fields.json" = .ok one ∧
        Dictionary.find? still.name one = none ∧ Dictionary.find? turning.name one = some turning := by
  intro still turning disk
  have leads : disk.target "fields.json" = .ok "/home/user/fields.json" :=
    Route.Open.target_text (r := ⟨false, [], "fields.json"⟩) (by decide)
  have leads' : disk.target "turning.txt" = .ok "/home/user/turning.txt" :=
    Route.Open.target_text (r := ⟨false, [], "turning.txt"⟩) (by decide)
  have loaded : LibraryAction.libraryOf disk.read "fields.json" = .ok [(still.name, still)] :=
    LibraryAction.libraryOf_eq_ok_iff.mpr
      (.inr ⟨_, Disk.read_of_target leads, Library.ofText?_toText (List.pairwise_singleton _ _)⟩)
  obtain ⟨field, reads⟩ : ∃ field, FormulaField.ofSource turning.code = .ok (some field) := by
    have reads : (FormulaField.ofSource turning.code).toOption.join.isSome = true := by decide +kernel
    obtain ⟨field, read⟩ := Option.isSome_iff_exists.mp reads
    exact ⟨field, toOption_eq_some_iff.mp (Option.join_eq_some_iff.mp read)⟩
  have run (action : LibraryAction) (now : UInt64) {disk : Disk} {old : Library}
      (loaded : LibraryAction.libraryOf disk.read "fields.json" = .ok old)
      (admitted : action.Admitted disk "fields.json" old) :
      let (outcome, after) := Invocation.perform ⟨true, .library "fields.json" action⟩ now disk
      outcome.code = 0 ∧ action.Settled now "fields.json" disk after old := by
    have transaction := library_transaction true "fields.json" action now disk
    dsimp only at transaction ⊢
    split_ifs at transaction with succeeded
    · obtain ⟨old', loaded', -, settled⟩ := transaction
      cases loaded.symm.trans loaded'
      exact ⟨succeeded, settled⟩
    · exact absurd admitted (transaction.2 old loaded)
  have provided : LibraryAction.Provides disk.read (.file "turning.txt") turning.code :=
    ⟨Disk.read_of_target leads', field, reads⟩
  obtain ⟨saves, code, both, ⟨given, -⟩, rewritten, found⟩ :=
    run (.save turning.name (.file "turning.txt") false) 2 loaded ⟨.inr rfl, ⟨_, provided⟩, _, leads⟩
  cases provided.1.symm.trans given
  obtain ⟨deletes, one, rewritten', found'⟩ := run (.delete still.name) 3 rewritten.loads ⟨still, found still.name⟩
  exact ⟨saves, deletes, both, one, rewritten.loads, found _, found _, rewritten'.loads, found' _,
    (found' _).trans (found _)⟩

end Invocation

end DriftField
