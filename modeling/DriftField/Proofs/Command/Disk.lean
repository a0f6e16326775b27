import Mathlib
import DriftField.Command.Disk
import DriftField.Proofs.Dictionary
import DriftField.Proofs.Share
/-!
Reading and writing files. Where a path leads depends on the directories only, not on what there is in them, so a text
that was written is what is read at the same path afterwards. A path in full leads to a file of its own.
-/

namespace DriftField

namespace Disk

variable {disk : Disk} {path file text : String}

theorem enter_eq_ok {folder reached : Folder} {parts : List String} (entered : disk.enter folder parts = .ok reached)
    (files : Dictionary Content) : Disk.enter ⟨disk.toLayout, files⟩ folder parts = .ok reached := by
  induction parts generalizing folder with
  | nil => exact entered
  | cons part rest induction =>
      obtain ⟨place, stepped, entered⟩ := exists_of_bind_eq_ok entered
      rw [enter, stepped]
      cases place with
      | folder next => exact induction entered
      | file path => cases entered

theorem approach_eq_ok {reached : Folder × String} (approached : disk.approach path = .ok reached)
    (files : Dictionary Content) : Disk.approach ⟨disk.toLayout, files⟩ path = .ok reached := by
  unfold approach at approached ⊢
  by_cases empty : path = ""
  · rw [if_pos empty] at approached
    cases approached
  by_cases long : pathLimit ≤ path.utf8ByteSize
  · rw [if_neg empty, if_pos long] at approached
    cases approached
  rw [if_neg empty, if_neg long] at approached ⊢
  obtain ⟨folder, entered, done⟩ := exists_of_bind_eq_ok approached
  dsimp only
  rw [enter_eq_ok entered files]
  exact done

/-- A path leads to a file when the last of its parts names one and no slash comes after it. -/
theorem target_eq_ok_iff :
    disk.target path = .ok file ↔
      ∃ folder part, disk.approach path = .ok (folder, part) ∧ asksForDirectory path = false ∧
        disk.step folder part = .ok (.file file) := by
  unfold target
  constructor
  · intro leads
    obtain ⟨⟨folder, part⟩, approached, leads⟩ := exists_of_bind_eq_ok leads
    cases slash : asksForDirectory path with
    | true =>
        rw [slash] at leads
        cases leads
    | false =>
        rw [slash] at leads
        obtain ⟨place, stepped, leads⟩ := exists_of_bind_eq_ok leads
        cases place with
        | folder next => cases leads
        | file name =>
            cases leads
            exact ⟨folder, part, approached, rfl, stepped⟩
  · rintro ⟨folder, part, approached, slash, stepped⟩
    simp only [approached, slash, stepped, bind, Except.bind, Bool.false_eq_true, if_false]

theorem target_eq_ok (leads : disk.target path = .ok file) (files : Dictionary Content) :
    Disk.target ⟨disk.toLayout, files⟩ path = .ok file := by
  obtain ⟨folder, part, approached, rest⟩ := target_eq_ok_iff.mp leads
  exact target_eq_ok_iff.mpr ⟨folder, part, approach_eq_ok approached files, rest⟩

theorem read_of_target (leads : disk.target path = .ok file) :
    disk.read path = (Dictionary.find? file disk.files).elim (.error .absent) Content.reading := by
  obtain ⟨folder, part, approached, slash, stepped⟩ := target_eq_ok_iff.mp leads
  rw [read, approached]
  simp only [bind, Except.bind, stepped, slash]
  cases Dictionary.find? file disk.files <;> rfl

theorem exists_target_of_read (read : disk.read path = .ok text) :
    ∃ file content, disk.target path = .ok file ∧ Dictionary.find? file disk.files = some content ∧
      content.reading = .ok text := by
  obtain ⟨⟨folder, part⟩, approached, read⟩ := exists_of_bind_eq_ok read
  obtain ⟨place, stepped, read⟩ := exists_of_bind_eq_ok read
  cases place with
  | folder next => cases read
  | file file =>
      cases found : Dictionary.find? file disk.files with
      | none => simp [found] at read
      | some content =>
        cases slash : asksForDirectory path with
        | true => simp [found, slash] at read
        | false =>
          simp only [found, slash] at read
          exact ⟨file, content, target_eq_ok_iff.mpr ⟨folder, part, approached, slash, stepped⟩, found, read⟩

theorem write_text (disk : Disk) (path text : String) :
    disk.write path (.text text) =
      match disk.target path with
      | .error cause => (.error cause, disk)
      | .ok file => (.ok (), { disk with files := Dictionary.insert file (.text text) disk.files }) := by
  unfold write Content.accepted
  cases disk.target path <;> rfl

theorem read_insert (leads : disk.target path = .ok file) (text : String) :
    Disk.read { disk with files := Dictionary.insert file (.text text) disk.files } path = .ok text := by
  rw [read_of_target (target_eq_ok leads _), Dictionary.find?_insert, if_pos rfl]
  rfl

end Disk

/-! ### Paths in full -/

theorem Text.exists_intercalate_cons (separator : Char) (first : List Char) (rest : List (List Char)) :
    ∃ after, List.intercalate [separator] (first :: rest) = first ++ after := by
  cases rest with
  | nil => exact ⟨[], by rw [List.intercalate_singleton, List.append_nil]⟩
  | cons second rest => exact ⟨_, (List.intercalate_cons_cons).trans (List.append_assoc _ _ _)⟩

theorem Text.exists_intercalate_concat (separator : Char) (rest : List (List Char)) (last : List Char) :
    ∃ before, List.intercalate [separator] (rest ++ [last]) = before ++ last := by
  induction rest with
  | nil => exact ⟨[], List.intercalate_singleton⟩
  | cons first rest induction =>
      obtain ⟨before, joined⟩ := induction
      refine ⟨first ++ [separator] ++ before, ?_⟩
      rw [List.cons_append, List.intercalate_cons_of_ne_nil (by simp), joined, List.append_assoc _ before]

/-- A name that stands for itself in a path. -/
structure PlainName (name : String) : Prop where
  nonempty : name ≠ ""
  uncut : '/' ∉ name.toList
  notHere : name ≠ "."
  notUp : name ≠ ".."
  short : name.utf8ByteSize ≤ 255

instance (name : String) : Decidable (PlainName name) :=
  decidable_of_iff (name ≠ "" ∧ '/' ∉ name.toList ∧ name ≠ "." ∧ name ≠ ".." ∧ name.utf8ByteSize ≤ 255)
    ⟨fun ⟨a, b, c, d, e⟩ => ⟨a, b, c, d, e⟩, fun ⟨a, b, c, d, e⟩ => ⟨a, b, c, d, e⟩⟩

namespace Folder

def names : Folder → List String
  | .root => []
  | .inside folder name => folder.names ++ [name]

def through (folder : Folder) (names : List String) : Folder := names.foldl .inside folder

theorem through_concat (folder : Folder) (names : List String) (name : String) :
    folder.through (names ++ [name]) = (folder.through names).inside name := List.foldl_append

theorem names_through (folder : Folder) (names : List String) :
    (folder.through names).names = folder.names ++ names := by
  induction names generalizing folder with
  | nil => exact (List.append_nil _).symm
  | cons name names induction => exact (induction (folder.inside name)).trans (List.append_assoc _ _ _)

theorem entry_eq (folder : Folder) (name : String) :
    folder.entry name = String.join ((folder.names ++ [name]).map ("/" ++ ·)) := by
  induction folder generalizing name with
  | root => simp [entry, names]
  | inside folder last induction => simp [entry, names, induction, String.append_assoc]

end Folder

namespace Layout

variable {layout : Layout} {folder : Folder} {name : String}

theorem step_eq_folder (plain : PlainName name) (there : folder.inside name ∈ layout.folders) :
    layout.step folder name = .ok (.folder (folder.inside name)) := by
  unfold step nameLimit
  rw [if_neg plain.notHere, if_neg plain.notUp, if_neg (Nat.not_lt.mpr plain.short),
    if_pos (List.contains_iff_mem.mpr there)]

theorem step_eq_file (plain : PlainName name) (free : folder.inside name ∉ layout.folders) :
    layout.step folder name = .ok (.file (folder.entry name)) := by
  unfold step nameLimit
  rw [if_neg plain.notHere, if_neg plain.notUp, if_neg (Nat.not_lt.mpr plain.short),
    if_neg (mt List.contains_iff_mem.mp free)]

end Layout

theorem Disk.enter_eq_through {disk : Disk} {folder : Folder} {names : List String}
    (plain : ∀ name ∈ names, PlainName name)
    (there : ∀ front ∈ names.inits, front ≠ [] → folder.through front ∈ disk.folders) :
    disk.enter folder names = .ok (folder.through names) := by
  induction names generalizing folder with
  | nil => rfl
  | cons name names induction =>
      obtain ⟨plain, plain'⟩ := List.forall_mem_cons.mp plain
      have next : folder.inside name ∈ disk.folders := there [name] (by simp) (by simp)
      rw [enter, Layout.step_eq_folder plain next]
      exact induction plain' fun front first _ => there (name :: front) (by simpa using first) (by simp)

/-- A path in full: from the root, or from where paths start, through directories to a name. -/
structure Route where
  absolute : Bool
  folders : List String
  name : String

namespace Route

def text (r : Route) : String := (if r.absolute then "/" else "") ++ "/".intercalate (r.folders ++ [r.name])

def start (layout : Layout) (r : Route) : Folder := if r.absolute then .root else layout.here

/-- The path from the root to where a route leads. -/
def full (layout : Layout) (r : Route) : String :=
  String.join (((r.start layout).names ++ r.folders ++ [r.name]).map ("/" ++ ·))

/-- A route goes through directories that there are, and its name is not that of another one. -/
structure Open (layout : Layout) (r : Route) : Prop where
  plain : ∀ name ∈ r.folders ++ [r.name], PlainName name
  short : r.text.utf8ByteSize < 4096
  folders : ∀ front ∈ r.folders.inits, front ≠ [] → (r.start layout).through front ∈ layout.folders
  free : (r.start layout).through (r.folders ++ [r.name]) ∉ layout.folders

instance (layout : Layout) (r : Route) : Decidable (r.Open layout) :=
  decidable_of_iff ((∀ name ∈ r.folders ++ [r.name], PlainName name) ∧ r.text.utf8ByteSize < 4096 ∧
      (∀ front ∈ r.folders.inits, front ≠ [] → (r.start layout).through front ∈ layout.folders) ∧
      (r.start layout).through (r.folders ++ [r.name]) ∉ layout.folders)
    ⟨fun ⟨a, b, c, d⟩ => ⟨a, b, c, d⟩, fun ⟨a, b, c, d⟩ => ⟨a, b, c, d⟩⟩

variable {layout : Layout} {r : Route}

theorem toList_text (r : Route) :
    r.text.toList = (if r.absolute then ['/'] else []) ++
      List.intercalate ['/'] (r.folders.map String.toList ++ [r.name.toList]) := by
  unfold text
  rw [String.toList_append, String.toList_intercalate, List.map_append, List.map_singleton]
  split <;> rfl

theorem Open.uncut (plain : r.Open layout) :
    ∀ field ∈ r.folders.map String.toList ++ [r.name.toList], field ≠ [] ∧ '/' ∉ field := by
  rw [← List.map_singleton, ← List.map_append]
  intro field among
  obtain ⟨name, member, rfl⟩ := List.mem_map.mp among
  have plain := plain.plain name member
  exact ⟨mt String.toList_eq_nil_iff.mp plain.nonempty, plain.uncut⟩

theorem Open.parts (plain : r.Open layout) :
    ((Text.pieces '/' r.text.toList).filter (· ≠ [])).map String.ofList = r.folders ++ [r.name] := by
  have pieces : Text.pieces '/' (List.intercalate ['/'] (r.folders.map String.toList ++ [r.name.toList])) =
      r.folders.map String.toList ++ [r.name.toList] :=
    Text.pieces_intercalate (List.append_ne_nil_of_right_ne_nil _ (List.cons_ne_nil _ _))
      fun field member => (plain.uncut field member).2
  have whole : (r.folders.map String.toList ++ [r.name.toList]).filter (· ≠ []) =
      r.folders.map String.toList ++ [r.name.toList] :=
    List.filter_eq_self.mpr fun field member => decide_eq_true (plain.uncut field member).1
  have filtered : (Text.pieces '/' r.text.toList).filter (· ≠ []) =
      r.folders.map String.toList ++ [r.name.toList] := by
    rw [toList_text]
    cases r.absolute with
    | false => rw [if_neg Bool.false_ne_true, List.nil_append, pieces, whole]
    | true =>
        -- The slash in front gives one more piece, which is empty.
        rw [if_pos rfl, List.singleton_append, ← List.nil_append ('/' :: _),
          Text.pieces_append List.not_mem_nil, pieces, List.filter_cons_of_neg (by simp), whole]
  rw [filtered]
  simp [Function.comp_def]

theorem Open.name_plain (plain : r.Open layout) : PlainName r.name := plain.plain r.name (by simp)

theorem Open.folders_plain (plain : r.Open layout) : ∀ name ∈ r.folders, PlainName name :=
  fun name member => plain.plain name (List.mem_append_left _ member)

theorem Open.text_ne_empty (plain : r.Open layout) : r.text ≠ "" := by
  intro empty
  have parts := plain.parts
  rw [empty] at parts
  simp [Text.pieces_nil] at parts

theorem Open.head?_text (plain : r.Open layout) : r.text.toList.head? = some '/' ↔ r.absolute = true := by
  rw [toList_text]
  cases r.absolute with
  | true => simp
  | false =>
      rw [if_neg Bool.false_ne_true, List.nil_append]
      refine iff_of_false (fun slash => ?_) Bool.false_ne_true
      cases fields : r.folders.map String.toList ++ [r.name.toList] with
      | nil => simp at fields
      | cons first rest =>
          obtain ⟨nonempty, uncut⟩ := plain.uncut first (by simp [fields])
          obtain ⟨after, joined⟩ := Text.exists_intercalate_cons '/' first rest
          rw [fields, joined, List.head?_append_of_ne_nil _ nonempty] at slash
          exact uncut (List.mem_of_head? slash)

theorem Open.asksForDirectory (plain : r.Open layout) : Disk.asksForDirectory r.text = false := by
  obtain ⟨before, joined⟩ := Text.exists_intercalate_concat '/' (r.folders.map String.toList) r.name.toList
  rw [Disk.asksForDirectory, toList_text, joined, ← List.append_assoc,
    List.getLast?_append_of_ne_nil _ (mt String.toList_eq_nil_iff.mp plain.name_plain.nonempty), beq_eq_false_iff_ne]
  exact fun slash => plain.name_plain.uncut (List.mem_of_getLast? slash)

theorem full_eq (layout : Layout) (r : Route) :
    r.full layout = ((r.start layout).through r.folders).entry r.name := by
  rw [full, Folder.entry_eq, Folder.names_through]

theorem Open.target_text {disk : Disk} (plain : r.Open disk.toLayout) :
    disk.target r.text = .ok (r.full disk.toLayout) := by
  have fits : ¬Disk.pathLimit ≤ r.text.utf8ByteSize := Nat.not_le.mpr plain.short
  have begins : (if r.text.toList.head? = some '/' then Folder.root else disk.here) = r.start disk.toLayout :=
    if_congr plain.head?_text rfl rfl
  have entered : disk.enter (r.start disk.toLayout) r.folders = .ok ((r.start disk.toLayout).through r.folders) :=
    Disk.enter_eq_through plain.folders_plain plain.folders
  have approached : disk.approach r.text = .ok ((r.start disk.toLayout).through r.folders, r.name) := by
    unfold Disk.approach
    rw [if_neg plain.text_ne_empty, if_neg fits, plain.parts]
    dsimp only
    rw [begins, List.dropLast_concat, List.getLastD_concat, entered]
    rfl
  rw [full_eq]
  exact Disk.target_eq_ok_iff.mpr ⟨_, _, approached, plain.asksForDirectory,
    Layout.step_eq_file plain.name_plain (Folder.through_concat _ _ _ ▸ plain.free)⟩

end Route

def Layout.home : Layout where
  here := Folder.root.through ["home", "user"]
  folders := [Folder.root.through ["home"], Folder.root.through ["home", "user"]]

end DriftField
