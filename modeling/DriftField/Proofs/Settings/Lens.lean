import Mathlib
import DriftField.Proofs.Dictionary
import DriftField.Proofs.Settings.Parameter
import DriftField.Settings.Preset
/-!
The values of the parameters and overriding belong together like the two halves of a lens: the values of settings
override them to themselves, what is overridden has the values that it was given, and of two overrides the later wins
name by name.
-/

namespace DriftField

namespace Json

/-- The members of an object; what is no object has none. -/
def members : Json → List (String × Json)
  | .object members => members
  | _ => []

/-- The object with the members of two. Where both have a name, the member of the second counts. -/
def merge (first second : Json) : Json :=
  .object (second.members.foldr (fun member d => Dictionary.insert member.1 member.2 d) first.members)

theorem member?_eq (j : Json) (name : String) : j.member? name = Dictionary.find? name j.members := by
  cases j <;> rfl

theorem member?_merge (first second : Json) (name : String) :
    (first.merge second).member? name = (second.member? name).or (first.member? name) := by
  rw [member?_eq second, member?_eq first]
  change Dictionary.find? name (List.foldr _ _ _) = _
  induction second.members with
  | nil => rfl
  | cons member members induction =>
      rw [List.foldr_cons, Dictionary.find?_insert, Dictionary.find?_cons, induction]
      split <;> rfl

theorem mem_members_merge {first second : Json} {member : String × Json}
    (h : member ∈ (first.merge second).members) :
    member ∈ first.members ∨ member ∈ second.members := by
  change member ∈ List.foldr _ _ _ at h
  generalize second.members = entries at h ⊢
  induction entries with
  | nil => exact .inl h
  | cons entry entries induction =>
      rcases Dictionary.mem_insert h with rfl | old
      · exact .inr List.mem_cons_self
      · exact (induction old).imp_right (List.mem_cons_of_mem _)

theorem ofFloat_eq {v : Float} (finite : Scalar.isFinite v = true) : ofFloat v = .fraction v := if_pos finite

theorem float?_ofFloat {v : Float} (finite : Scalar.isFinite v = true) : (ofFloat v).float? = some v := by
  rw [ofFloat_eq finite]
  rfl

theorem member?_record {members : List (String × Json)} (distinct : (members.map Prod.fst).Nodup) {name : String}
    {value : Json} (member : (name, value) ∈ members) : (record members).member? name = some value :=
  Dictionary.find?_ofPairs distinct member

theorem mem_members_record {members : List (String × Json)} {member : String × Json}
    (h : member ∈ (record members).members) : member ∈ members := Dictionary.mem_ofPairs h

theorem member?_record_eq_none {members : List (String × Json)} {name : String}
    (absent : ∀ member ∈ members, member.1 ≠ name) : (record members).member? name = none :=
  Dictionary.find?_eq_none fun member entered => absent member (Dictionary.mem_ofPairs entered)

end Json

namespace Parameters

theorem forM_eq_ok {ε α : Type} {check : α → Except ε Unit} {items : List α} :
    items.forM check = .ok () ↔ ∀ item ∈ items, check item = .ok () := by
  induction items with
  | nil => exact ⟨fun _ => List.forall_mem_nil _, fun _ => rfl⟩
  | cons item items induction =>
      rw [List.forall_mem_cons, ← induction]
      change (check item >>= fun _ => items.forM check) = _ ↔ _
      cases check item with
      | error fault => exact ⟨nofun, fun passed => nomatch passed.1⟩
      | ok _ => exact ⟨fun passed => ⟨rfl, passed⟩, fun passed => passed.2⟩

theorem check_eq_ok {schema params : Json} :
    check schema params = .ok () ↔ ∀ member ∈ params.members, checkMember schema member.1 member.2 = .ok () := by
  cases params with
  | object members => exact forM_eq_ok
  | _ => exact ⟨fun _ => List.forall_mem_nil _, fun _ => rfl⟩

theorem checkMember_eq_ok {schema value : Json} {name type : String} (declared : declared? schema name = some type) :
    checkMember schema name value = .ok () ↔ admits type value = true := by
  unfold checkMember
  rw [declared]
  simp only
  split
  · next admitted => exact ⟨fun _ => admitted, fun _ => rfl⟩
  · next refused => exact ⟨nofun, fun admitted => absurd admitted refused⟩

end Parameters

theorem Strategy.ofName?_name (s : Strategy) : ofName? s.name = some s := by
  cases s <;> decide

namespace Domain

variable {d : Domain} {j : Json}

theorem ofJson?_toJson (bounded : d.Bounded) {v : d.Value} (admits : d.Admits v) :
    d.ofJson? (d.toJson v) = some v := by
  cases d with
  | count most => rfl
  | number low high =>
      have finite := Scalar.isFinite_of_mem bounded.1 bounded.2.1 admits.1 admits.2
      exact Json.float?_ofFloat finite
  | strategy => exact Strategy.ofName?_name v
  | flag => rfl

theorem admits_of_ofJson? {v : d.Value} (read : d.ofJson? j = some v) :
    Parameters.admits d.typeName j = true := by
  cases d with
  | count most => exact Option.isSome_of_eq_some read
  | number low high => exact Option.isSome_of_eq_some read
  | strategy =>
      obtain ⟨name, text, -⟩ := Option.bind_eq_some_iff.mp read
      exact Option.isSome_of_eq_some text
  | flag => exact Option.isSome_of_eq_some read

instance decidableAdmits : (d : Domain) → (v : d.Value) → Decidable (d.Admits v)
  | .count most, n => Nat.decLe n most
  | .number low high, v => inferInstanceAs (Decidable (low ≤ (show Float from v) ∧ (show Float from v) ≤ high))
  | .strategy, _ | .flag, _ => inferInstanceAs (Decidable True)

/-- A value of the declared type is read, unless it is a name that no strategy has. -/
theorem exists_ofJson? (typed : Parameters.admits d.typeName j = true)
    (known : d = .strategy → ∀ name, j.text? = some name → (Strategy.ofName? name).isSome = true) :
    ∃ v, d.ofJson? j = some v := by
  cases d with
  | count most => exact Option.isSome_iff_exists.mp typed
  | number low high => exact Option.isSome_iff_exists.mp typed
  | strategy =>
      obtain ⟨name, text⟩ := Option.isSome_iff_exists.mp (show j.text?.isSome = true from typed)
      obtain ⟨s, named⟩ := Option.isSome_iff_exists.mp (known rfl name text)
      exact ⟨s, Option.bind_eq_some_iff.mpr ⟨name, text, named⟩⟩
  | flag => exact Option.isSome_iff_exists.mp typed

end Domain

namespace Parameter

variable {p : Parameter}

theorem names_nodup : (all.map name).Nodup := by decide

theorem eq_strategy (member : p ∈ all) (same : p.domain = .strategy) : p = strategy := by
  unfold all at member
  simp only [List.mem_cons, List.not_mem_nil, or_false] at member
  rcases member with rfl | rfl | rfl | rfl | rfl | rfl | rfl | rfl | rfl | rfl | rfl | rfl | rfl
  all_goals first | rfl | cases same

theorem member?_schema (member : p ∈ all) (s : Settings) : s.schema.member? p.name = some (p.entry s).2 := by
  have names : (all.map (entry s)).map Prod.fst = all.map name := by
    rw [List.map_map]
    rfl
  exact Json.member?_record (names ▸ names_nodup) (List.mem_map_of_mem (f := entry s) member)

theorem member?_schema_eq_none {name : String} (unknown : ∀ p ∈ all, p.name ≠ name) (s : Settings) :
    s.schema.member? name = none := by
  refine Json.member?_record_eq_none fun entry listed => ?_
  obtain ⟨p, member, rfl⟩ := List.mem_map.mp listed
  exact unknown p member

theorem member?_entry {key : String} {value : Json} (s : Settings)
    (listed : (key, value) ∈ ("type", .text p.domain.typeName) :: ("default", p.domain.toJson (p.get s)) ::
      ("description", .text p.description) :: p.domain.bounds) : (p.entry s).2.member? key = some value := by
  have keys (d : Domain) : ("type" :: "default" :: "description" :: d.bounds.map Prod.fst).Nodup := by
    cases d <;> simp [Domain.bounds]
  refine Json.member?_record ?_ listed
  exact keys p.domain

theorem declared?_schema (member : p ∈ all) (s : Settings) :
    Parameters.declared? s.schema p.name = some p.domain.typeName := by
  unfold Parameters.declared?
  rw [member?_schema member]
  change ((p.entry s).2.member? "type" >>= Json.text?) = _
  rw [member?_entry s List.mem_cons_self]
  rfl

theorem declared?_schema_eq_none {name : String} (unknown : ∀ p ∈ all, p.name ≠ name) (s : Settings) :
    Parameters.declared? s.schema name = none := by
  unfold Parameters.declared?
  rw [member?_schema_eq_none unknown]
  rfl

/-- The types that a schema declares do not depend on the settings. -/
theorem declared?_schema_congr (s t : Settings) (name : String) :
    Parameters.declared? s.schema name = Parameters.declared? t.schema name := by
  by_cases known : ∃ p ∈ all, p.name = name
  · obtain ⟨p, member, rfl⟩ := known
    rw [declared?_schema member, declared?_schema member]
  · have unknown : ∀ p ∈ all, p.name ≠ name := fun p member same => known ⟨p, member, same⟩
    rw [declared?_schema_eq_none unknown, declared?_schema_eq_none unknown]

def given? (p : Parameter) (params : Json) : Option p.domain.Value := (params.member? p.name).bind p.domain.ofJson?

theorem get_foldl_apply_of_mem {params : Json} {ps : List Parameter} (apart : ps.Pairwise Apart)
    (lawful : ∀ p ∈ ps, p.Lawful) (member : p ∈ ps) (s : Settings) :
    p.get (ps.foldl (apply params) s) = p.domain.confine ((p.given? params).getD (p.get s)) := by
  induction ps generalizing s with
  | nil => cases member
  | cons first rest induction =>
      rw [List.pairwise_cons] at apart
      rw [List.foldl_cons]
      rcases List.mem_cons.mp member with rfl | later
      · rw [get_foldl_apply apart.1]
        exact (lawful p List.mem_cons_self).get_set s _
      · rw [induction apart.2 (fun q member => lawful q (List.mem_cons_of_mem _ member)) later]
        congr 2
        exact (apart.1 p later).right s _

theorem get_tuned (member : p ∈ all) (s : Settings) (params : Json) :
    p.get (s.tuned params) = p.domain.confine ((p.given? params).getD (p.get s)) :=
  get_foldl_apply_of_mem all_apart (fun _ => lawful_of_mem) member s

end Parameter

namespace Settings

variable {s t b c d : Settings} {params first second : Json}

/-- The settings with the tunable ones of others. -/
def graft (s t : Settings) : Settings :=
  { s with
    swarm := { s.swarm with
      count := t.swarm.count, trailLength := t.swarm.trailLength, trailAge := t.swarm.trailAge }
    flow := { s.flow with
      intensity := t.flow.intensity
      zoom := t.flow.zoom
      pointer := { s.flow.pointer with influence := t.flow.pointer.influence }
      noiseGain := t.flow.noiseGain
      waves := { s.flow.waves with amplitude := t.flow.waves.amplitude }
      drift := t.flow.drift }
    strategy := t.strategy
    persistence := t.persistence
    showField := t.showField }

theorem graft_eq_foldl (s t : Settings) :
    s.graft t = Parameter.all.foldl (fun out p => p.set out (p.get t)) s := rfl

theorem graft_congr (same : ∀ p ∈ Parameter.all, p.get t = p.get c) : s.graft t = s.graft c := by
  rw [graft_eq_foldl, graft_eq_foldl]
  exact List.foldl_ext _ _ _ fun out p member => by rw [same p member]

theorem graft_self (s : Settings) : s.graft s = s := rfl

theorem graft_graft (s t c : Settings) : (s.graft t).graft c = s.graft c := rfl

theorem parameters_graft (s t : Settings) : (s.graft t).parameters = t.parameters := rfl

theorem graft_set {p : Parameter} (member : p ∈ Parameter.all) (v : p.domain.Value) (s t : Settings) :
    s.graft (p.set t v) = p.set (s.graft t) v := by
  unfold Parameter.all at member
  simp only [List.mem_cons, List.not_mem_nil, or_false] at member
  rcases member with rfl | rfl | rfl | rfl | rfl | rfl | rfl | rfl | rfl | rfl | rfl | rfl | rfl
  all_goals rfl

theorem graft_foldl_apply {ps : List Parameter} (known : ∀ p ∈ ps, p ∈ Parameter.all) (kept : s.graft t = t) :
    s.graft (ps.foldl (Parameter.apply params) t) = ps.foldl (Parameter.apply params) t := by
  induction ps generalizing t with
  | nil => exact kept
  | cons p ps induction =>
      refine induction (fun q member => known q (List.mem_cons_of_mem _ member)) ?_
      unfold Parameter.apply Parameter.put
      rw [graft_set (known p List.mem_cons_self), kept]

theorem graft_tuned (s : Settings) (params : Json) : s.graft (s.tuned params) = s.tuned params :=
  graft_foldl_apply (fun _ member => member) (graft_self s)

/-! ### Parameters that are accepted -/

/-- Parameters of the declared types, with a strategy that is known. -/
structure Accepts (params : Json) : Prop where
  typed : ∀ s : Settings, Parameters.check s.schema params = .ok ()
  known : checkStrategy params = .ok ()

theorem exists_of_isSome_toOption {ε α : Type} {x : Except ε α} (some : x.toOption.isSome = true) :
    ∃ a, x = .ok a := by
  cases x with
  | error fault => cases some
  | ok a => exact ⟨a, rfl⟩

theorem accepts_of_override (done : s.override params = .ok t) : Accepts params := by
  obtain ⟨⟨⟩, typed, done⟩ := exists_of_bind_eq_ok done
  obtain ⟨⟨⟩, known, -⟩ := exists_of_bind_eq_ok done
  refine ⟨fun other => ?_, known⟩
  rw [Parameters.check_eq_ok] at typed ⊢
  intro member listed
  have passed := typed member listed
  unfold Parameters.checkMember at passed ⊢
  rwa [Parameter.declared?_schema_congr other s]

theorem Accepts.override (accepts : Accepts params) (s : Settings) : s.override params = .ok (s.tuned params) := by
  unfold Settings.override
  rw [accepts.typed s]
  change (checkStrategy params >>= _) = _
  rw [accepts.known]
  rfl

theorem checkStrategy_eq_ok : checkStrategy params = .ok () ↔
    ∀ name, (params.member? Parameter.strategy.name).bind Json.text? = some name →
      (Strategy.ofName? name).isSome = true := by
  unfold checkStrategy
  cases (params.member? Parameter.strategy.name).bind Json.text? with
  | none => exact ⟨fun _ => nofun, fun _ => rfl⟩
  | some name =>
      simp only [Option.some.injEq, forall_eq']
      cases (Strategy.ofName? name).isSome with
      | false => exact ⟨nofun, nofun⟩
      | true => exact ⟨fun _ => rfl, fun _ => rfl⟩

/-- A parameter that is accepted is read, never passed over. -/
theorem Accepts.given (accepts : Accepts params) {p : Parameter} (member : p ∈ Parameter.all) {j : Json}
    (listed : params.member? p.name = some j) : ∃ v, p.given? params = some v := by
  have typed : Parameters.admits p.domain.typeName j = true := by
    have passed := Parameters.check_eq_ok.mp (accepts.typed .standard)
    rw [Json.member?_eq] at listed
    exact (Parameters.checkMember_eq_ok (Parameter.declared?_schema member .standard)).mp
      (passed _ (Dictionary.mem_of_find? listed))
  unfold Parameter.given?
  rw [listed]
  refine Domain.exists_ofJson? typed fun domain name text => ?_
  obtain rfl := Parameter.eq_strategy member domain
  refine checkStrategy_eq_ok.mp accepts.known name ?_
  rw [listed]
  exact text

theorem Accepts.merge (accepts : Accepts first) (accepts' : Accepts second) : Accepts (first.merge second) where
  typed s := by
    rw [Parameters.check_eq_ok]
    intro member listed
    rcases Json.mem_members_merge listed with earlier | later
    · exact Parameters.check_eq_ok.mp (accepts.typed s) member earlier
    · exact Parameters.check_eq_ok.mp (accepts'.typed s) member later
  known := by
    rw [checkStrategy_eq_ok, Json.member?_merge]
    cases later : second.member? Parameter.strategy.name with
    | none => exact checkStrategy_eq_ok.mp accepts.known
    | some j =>
        have known := checkStrategy_eq_ok.mp accepts'.known
        rwa [later] at known

/-! ### The laws -/

theorem InRange.ofJson?_toJson (inRange : c.InRange) {p : Parameter} (member : p ∈ Parameter.all) :
    p.domain.ofJson? (p.domain.toJson (p.get c)) = some (p.get c) :=
  Domain.ofJson?_toJson (Parameter.lawful_of_mem member).bounded (inRange p member)

theorem member?_parameters (c : Settings) {p : Parameter} (member : p ∈ Parameter.all) :
    c.parameters.member? p.name = some (p.domain.toJson (p.get c)) := by
  have names : (Parameter.all.map (·.member c)).map Prod.fst = Parameter.all.map Parameter.name := by
    rw [List.map_map]
    rfl
  exact Json.member?_record (names ▸ Parameter.names_nodup) (List.mem_map_of_mem (f := (·.member c)) member)

theorem InRange.accepts_parameters (inRange : c.InRange) : Accepts c.parameters where
  typed s := by
    rw [Parameters.check_eq_ok]
    intro entry listed
    have own : entry ∈ Parameter.all.map (·.member c) := Json.mem_members_record listed
    obtain ⟨p, member, rfl⟩ : ∃ p ∈ Parameter.all, p.member c = entry := List.mem_map.mp own
    exact (Parameters.checkMember_eq_ok (Parameter.declared?_schema member s)).mpr
      (Domain.admits_of_ofJson? (inRange.ofJson?_toJson member))
  known := by
    rw [checkStrategy_eq_ok, c.member?_parameters (p := Parameter.strategy) (by simp [Parameter.all])]
    rintro name text
    cases text
    exact Option.isSome_of_eq_some (Strategy.ofName?_name c.strategy)

theorem InRange.tuned_parameters (inRange : c.InRange) (b : Settings) : b.tuned c.parameters = b.graft c := by
  rw [← graft_tuned b]
  refine graft_congr fun p member => ?_
  have given : p.given? c.parameters = some (p.get c) := by
    unfold Parameter.given?
    rw [c.member?_parameters member]
    exact inRange.ofJson?_toJson member
  rw [Parameter.get_tuned member, given]
  exact Domain.confine_eq_self (inRange p member)

theorem given?_merge {p : Parameter} (member : p ∈ Parameter.all) (accepts : Accepts second) :
    p.given? (first.merge second) = (p.given? second).or (p.given? first) := by
  unfold Parameter.given?
  rw [Json.member?_merge]
  cases listed : second.member? p.name with
  | none => rfl
  | some j =>
      obtain ⟨v, given⟩ := accepts.given member listed
      unfold Parameter.given? at given
      rw [listed] at given
      rw [Option.some_or, given]
      rfl

theorem tuned_tuned (accepts : Accepts second) (s : Settings) :
    (s.tuned first).tuned second = s.tuned (first.merge second) := by
  -- Both sides are `s` but for the parameters, so it is enough to compare these.
  rw [← graft_tuned (s.tuned first), ← graft_tuned s, graft_graft, ← graft_tuned s (first.merge second)]
  refine graft_congr fun p member => ?_
  rw [graft_tuned, Parameter.get_tuned member, Parameter.get_tuned member, Parameter.get_tuned member,
    given?_merge member accepts]
  cases p.given? second with
  | some v => rfl
  | none =>
      have bounded := (Parameter.lawful_of_mem member).bounded
      exact Domain.confine_eq_self (Domain.admits_confine bounded _)

/-- Settings within the bounds are overridden to themselves by their own values; overriding with the values of others
takes over these values and nothing else; and overriding twice is overriding once with both, the second first. -/
theorem parameters_lens :
    (∀ c : Settings, c.InRange → c.override c.parameters = .ok c) ∧
    (∀ b c : Settings, c.InRange →
      b.override c.parameters = .ok (b.graft c) ∧ (b.graft c).parameters = c.parameters) ∧
    (∀ (s t c d b : Settings) (first second : Json), s.override first = .ok c → t.override second = .ok d →
      ∃ once twice, b.override first = .ok once ∧ once.override second = .ok twice ∧
        b.override (first.merge second) = .ok twice) := by
  refine ⟨fun c inRange => ?_, fun b c inRange => ⟨?_, parameters_graft b c⟩, ?_⟩
  · rw [inRange.accepts_parameters.override, inRange.tuned_parameters, graft_self]
  · rw [inRange.accepts_parameters.override, inRange.tuned_parameters]
  · intro s t c d b first second done done'
    have accepts := accepts_of_override done
    have accepts' := accepts_of_override done'
    refine ⟨_, _, accepts.override b, accepts'.override _, ?_⟩
    rw [(accepts.merge accepts').override, tuned_tuned accepts']

instance : DecidablePred InRange := fun s =>
  inferInstanceAs (Decidable (∀ p ∈ Parameter.all, p.domain.Admits (p.get s)))

/-- Every preset is within the bounds. -/
theorem inRange_preset (p : Preset) : p.settings.InRange := by
  cases p <;> decide

theorem storm_parameters_lens :
    let calm := Preset.calm.settings
    let storm := Preset.storm.settings
    let first : Json := .object [("particle_count", .whole 99999), ("strategy", .text "noise")]
    let second : Json := .object [("scale", .fraction 7.5), ("strategy", .text "random")]
    storm.override storm.parameters = .ok storm ∧ calm.override storm.parameters = .ok (calm.graft storm) ∧
      (calm.graft storm).parameters = storm.parameters ∧
      ∃ once twice, calm.override first = .ok once ∧ once.override second = .ok twice ∧
        calm.override (first.merge second) = .ok twice := by
  intro calm storm first second
  obtain ⟨getPut, putGet, putPut⟩ := parameters_lens
  have inRange : storm.InRange := inRange_preset .storm
  have accepted : (calm.override first).toOption.isSome = true := by decide +kernel
  have accepted' : (storm.override second).toOption.isSome = true := by decide +kernel
  obtain ⟨c, done⟩ := exists_of_isSome_toOption accepted
  obtain ⟨d, done'⟩ := exists_of_isSome_toOption accepted'
  exact ⟨getPut storm inRange, (putGet calm storm inRange).1, (putGet calm storm inRange).2,
    putPut calm storm c d calm first second done done'⟩

end Settings

end DriftField
