import Mathlib
import DriftField.Proofs.Settings.Lens
import DriftField.Settings.Override
/-!
The schema and overriding agree. Parameters are accepted exactly if they have the types that the schema declares, those
that are accepted take effect within the bounds of the schema, and what the schema does not list counts for nothing.
-/

namespace DriftField

namespace Scalar

variable {low high : Float}

structure Clamped (low high given v : Float) : Prop where
  below : given < low → v = low
  above : high < given → v = high
  inside : low ≤ given → given ≤ high → v = given
  unordered : given.isNaN = true → v = low

theorem lesser_eq_left (order : low ≤ high) : lesser low high = low := by
  obtain ⟨left, right⟩ := not_isNaN_of_le order
  unfold lesser
  rw [left, right, if_neg Bool.false_ne_true, if_neg Bool.false_ne_true, if_neg (not_lt_of_le order)]

theorem clamped_within (order : low ≤ high) (given : Float) : Clamped low high given (within low high given) where
  below less := by
    obtain ⟨number, left⟩ := not_isNaN_of_lt less
    unfold within greater
    rw [number, left, if_neg Bool.false_ne_true, if_neg Bool.false_ne_true, if_pos less, lesser_eq_left order]
  above more := by
    obtain ⟨right, number⟩ := not_isNaN_of_lt more
    have left := (not_isNaN_of_le order).1
    have kept : ¬ given < low := not_lt_of_le (le_trans order (le_of_lt more))
    unfold within greater lesser
    rw [number, left, if_neg Bool.false_ne_true, if_neg Bool.false_ne_true, if_neg kept, number, right,
      if_neg Bool.false_ne_true, if_neg Bool.false_ne_true, if_pos more]
  inside above below := within_eq_self above below
  unordered nan := by
    unfold within greater
    rw [if_pos nan, lesser_eq_left order]

end Scalar

namespace Json

/-- Values of a type that a schema may declare. -/
inductive Typed : String → Json → Prop
  | integer (n : Nat) : Typed "integer" (.whole n)
  | whole (n : Int) : Typed "number" (.whole n)
  | fraction (v : Float) : Typed "number" (.fraction v)
  | boolean (b : Bool) : Typed "boolean" (.boolean b)
  | string (s : String) : Typed "string" (.text s)

inductive AtMost : Json → Json → Prop
  | whole {m n : Int} (order : m ≤ n) : AtMost (.whole m) (.whole n)
  | fraction {v w : Float} (order : v ≤ w) : AtMost (.fraction v) (.fraction w)

/-- A value within the bounds that stand in an entry of a schema. -/
structure Within (entry value : Json) : Prop where
  low : ∀ low, entry.member? "min" = some low → AtMost low value
  high : ∀ high, entry.member? "max" = some high → AtMost value high

theorem Within.of_bounds {entry value least greatest : Json} (low : entry.member? "min" = some least)
    (high : entry.member? "max" = some greatest) (above : AtMost least value) (below : AtMost value greatest) :
    Within entry value := by
  constructor
  · intro bound found
    cases low.symm.trans found
    exact above
  · intro bound found
    cases high.symm.trans found
    exact below

theorem Within.of_unbounded {entry : Json} (low : entry.member? "min" = none) (high : entry.member? "max" = none)
    (value : Json) : Within entry value := by
  constructor
  · intro bound found
    cases low.symm.trans found
  · intro bound found
    cases high.symm.trans found

/-- What becomes of a given value under the bounds that stand in an entry of a schema. -/
inductive Settles (entry : Json) : Json → Json → Prop
  | whole {low high n : Int} (least : entry.member? "min" = some (.whole low))
      (greatest : entry.member? "max" = some (.whole high)) :
      Settles entry (.whole n) (.whole (max low (min n high)))
  | number {given : Json} {low high n v : Float} (least : entry.member? "min" = some (.fraction low))
      (greatest : entry.member? "max" = some (.fraction high)) (number : given.float? = some n)
      (clamped : Scalar.Clamped low high n v) : Settles entry given (.fraction v)
  | boolean (b : Bool) : Settles entry (.boolean b) (.boolean b)
  | text (s : String) : Settles entry (.text s) (.text s)

/-- The members of an object that a schema lists. -/
def only (j schema : Json) : Json :=
  match j with
  | .object members => .object (members.filter fun member => (schema.member? member.1).isSome)
  | j => j

variable {j : Json}

theorem eq_of_natural? {n : Nat} (read : j.natural? = some n) : j = .whole n := by
  cases j with
  | whole m =>
      cases m with
      | ofNat k => cases read; rfl
      | negSucc k => cases read
  | _ => cases read

theorem eq_of_text? {s : String} (read : j.text? = some s) : j = .text s := by
  cases j with
  | text t => cases read; rfl
  | _ => cases read

theorem eq_of_boolean? {b : Bool} (read : j.boolean? = some b) : j = .boolean b := by
  cases j with
  | boolean c => cases read; rfl
  | _ => cases read

end Json

theorem Strategy.name_of_ofName? {name : String} {s : Strategy} (named : ofName? name = some s) : s.name = name := by
  simpa using List.find?_some named

theorem Strategy.isSome_ofName? {name : String} :
    (ofName? name).isSome = true ↔ name ∈ ["function", "noise", "noisy_function", "random"] := by
  have names : all.map Strategy.name = ["function", "noise", "noisy_function", "random"] := rfl
  rw [← names, List.mem_map]
  unfold ofName?
  simp only [List.find?_isSome, beq_iff_eq]

namespace Domain

variable {d : Domain} {j : Json}

theorem admits_of_typed (typed : Json.Typed d.typeName j) : Parameters.admits d.typeName j = true := by
  generalize declared : d.typeName = type at typed ⊢
  cases typed <;> rfl

theorem typed_of_admits (admitted : Parameters.admits d.typeName j = true) : Json.Typed d.typeName j := by
  cases d with
  | count most =>
      obtain ⟨n, read⟩ := Option.isSome_iff_exists.mp admitted
      rw [Json.eq_of_natural? read]
      exact .integer n
  | number low high =>
      cases j with
      | whole n => exact .whole n
      | fraction v => exact .fraction v
      | _ => cases admitted
  | strategy =>
      obtain ⟨s, read⟩ := Option.isSome_iff_exists.mp admitted
      rw [Json.eq_of_text? read]
      exact .string s
  | flag =>
      obtain ⟨b, read⟩ := Option.isSome_iff_exists.mp admitted
      rw [Json.eq_of_boolean? read]
      exact .boolean b

structure Stands (d : Domain) (entry : Json) : Prop where
  listed : ∀ key bound, (key, bound) ∈ d.bounds → entry.member? key = some bound
  unlisted : d.bounds = [] → entry.member? "min" = none ∧ entry.member? "max" = none

variable {entry : Json}

theorem Stands.count {most : Nat} (stands : (count most).Stands entry) :
    entry.member? "min" = some (.whole 0) ∧ entry.member? "max" = some (.whole most) :=
  ⟨stands.listed _ _ List.mem_cons_self, stands.listed _ _ (List.mem_cons_of_mem _ List.mem_cons_self)⟩

theorem Stands.number {low high : Float} (stands : (number low high).Stands entry)
    (bounded : (number low high).Bounded) :
    entry.member? "min" = some (.fraction low) ∧ entry.member? "max" = some (.fraction high) := by
  rw [← Json.ofFloat_eq bounded.1, ← Json.ofFloat_eq bounded.2.1]
  exact ⟨stands.listed _ _ List.mem_cons_self, stands.listed _ _ (List.mem_cons_of_mem _ List.mem_cons_self)⟩

theorem Stands.within (stands : d.Stands entry) (bounded : d.Bounded) {v : d.Value} (admits : d.Admits v) :
    Json.Within entry (d.toJson v) := by
  cases d with
  | count most =>
      obtain ⟨least, greatest⟩ := stands.count
      exact .of_bounds least greatest (.whole (Int.natCast_nonneg _)) (.whole (Int.ofNat_le.mpr admits))
  | number low high =>
      obtain ⟨least, greatest⟩ := stands.number bounded
      change Json.Within entry (Json.ofFloat v)
      rw [Json.ofFloat_eq (Scalar.isFinite_of_mem bounded.1 bounded.2.1 admits.1 admits.2)]
      exact .of_bounds least greatest (.fraction admits.1) (.fraction admits.2)
  | strategy | flag =>
      obtain ⟨least, greatest⟩ := stands.unlisted rfl
      exact .of_unbounded least greatest _

/-- A value that is read is brought within the bounds and nothing else. -/
theorem Stands.settles (stands : d.Stands entry) (bounded : d.Bounded) {v : d.Value} (read : d.ofJson? j = some v) :
    Json.Settles entry j (d.toJson (d.confine v)) := by
  cases d with
  | count most =>
      obtain ⟨least, greatest⟩ := stands.count
      obtain rfl := Json.eq_of_natural? read
      have settled (n : Nat) : Json.Settles entry (.whole n) (Json.ofNat (min n most)) := by
        have same : ((min n most : Nat) : Int) = max 0 (min (n : Int) most) := by omega
        unfold Json.ofNat
        rw [same]
        exact .whole least greatest
      exact settled v
  | number low high =>
      obtain ⟨least, greatest⟩ := stands.number bounded
      change Json.Settles entry j (Json.ofFloat (Scalar.within low high v))
      have mem := Scalar.within_mem bounded.2.2 v
      rw [Json.ofFloat_eq (Scalar.isFinite_of_mem bounded.1 bounded.2.1 mem.1 mem.2)]
      exact .number least greatest read (Scalar.clamped_within bounded.2.2 v)
  | strategy =>
      obtain ⟨name, text, named⟩ := Option.bind_eq_some_iff.mp read
      rw [Json.eq_of_text? text, ← Strategy.name_of_ofName? named]
      exact .text _
  | flag =>
      obtain rfl := Json.eq_of_boolean? read
      exact .boolean v

end Domain

namespace Parameter

variable {p : Parameter} {s : Settings} {value : Json}

theorem checkMember_eq_ok {name : String} :
    Parameters.checkMember s.schema name value = .ok () ↔
      ∀ type, Parameters.declared? s.schema name = some type → Json.Typed type value := by
  by_cases listed : ∃ p ∈ all, p.name = name
  · obtain ⟨p, member, rfl⟩ := listed
    have declared := declared?_schema member s
    rw [Parameters.checkMember_eq_ok declared, declared]
    simp only [Option.some.injEq, forall_eq']
    exact ⟨Domain.typed_of_admits, Domain.admits_of_typed⟩
  · have undeclared : Parameters.declared? s.schema name = none :=
      declared?_schema_eq_none (fun p member same => listed ⟨p, member, same⟩) s
    unfold Parameters.checkMember
    rw [undeclared]
    exact iff_of_true rfl nofun

theorem stands_entry (p : Parameter) (c : Settings) : p.domain.Stands (p.entry c).2 where
  listed key bound listed :=
    member?_entry c (List.mem_cons_of_mem _ (List.mem_cons_of_mem _ (List.mem_cons_of_mem _ listed)))
  unlisted none := by
    have absent (key : String) (other : key ∉ ["type", "default", "description"]) :
        (p.entry c).2.member? key = Option.none := by
      refine Json.member?_record_eq_none fun entry listed same => other ?_
      rw [none] at listed
      subst same
      exact List.mem_map_of_mem (f := Prod.fst) listed
    exact ⟨absent "min" (by decide), absent "max" (by decide)⟩

theorem exists_of_member?_schema {name : String} {entry : Json} (listed : s.schema.member? name = some entry) :
    ∃ p ∈ all, p.name = name ∧ (p.entry s).2 = entry := by
  by_contra unknown
  rw [member?_schema_eq_none fun p member same => unknown ⟨p, member, same, ?_⟩] at listed
  · cases listed
  · rw [← same, member?_schema member] at listed
    exact Option.some.inj listed

end Parameter

namespace Settings

variable {c out : Settings} {params first second : Json}

/-! ### Parameters that are not listed -/

theorem tuned_congr (same : ∀ p ∈ Parameter.all, first.member? p.name = second.member? p.name) (s : Settings) :
    s.tuned first = s.tuned second := by
  refine List.foldl_ext _ _ _ fun out p member => ?_
  unfold Parameter.apply
  rw [same p member]

theorem member?_only {schema : Json} {name : String} (listed : (schema.member? name).isSome = true) (params : Json) :
    (params.only schema).member? name = params.member? name := by
  cases params with
  | object members => exact Dictionary.find?_filter (fun _ => listed) members
  | _ => rfl

theorem forM_filter {ε α : Type} {check : α → Except ε Unit} {keep : α → Bool} {items : List α}
    (passed : ∀ item ∈ items, keep item = false → check item = .ok ()) :
    (items.filter keep).forM check = items.forM check := by
  induction items with
  | nil => rfl
  | cons item items induction =>
      rw [List.forall_mem_cons] at passed
      have later := induction passed.2
      rw [List.filter_cons]
      split_ifs with kept
      · change (check item >>= fun _ => (items.filter keep).forM check) = (check item >>= fun _ => items.forM check)
        rw [later]
      · change _ = (check item >>= fun _ => items.forM check)
        rw [later, passed.1 (Bool.eq_false_of_not_eq_true kept)]
        rfl

theorem check_only (schema params : Json) :
    Parameters.check schema (params.only schema) = Parameters.check schema params := by
  cases params with
  | object members =>
      refine forM_filter fun (name, value) _ unlisted => ?_
      have undeclared : Parameters.declared? schema name = none := by
        unfold Parameters.declared?
        rw [Option.isSome_eq_false_iff, Option.isNone_iff_eq_none] at unlisted
        rw [unlisted]
        rfl
      change Parameters.checkMember schema name value = .ok ()
      unfold Parameters.checkMember
      rw [undeclared]
  | _ => rfl

/-- What the schema does not list has no influence, on success or on failure. -/
theorem override_only (c : Settings) (params : Json) : c.override (params.only c.schema) = c.override params := by
  have same (p : Parameter) (member : p ∈ Parameter.all) :
      (params.only c.schema).member? p.name = params.member? p.name :=
    member?_only (Option.isSome_of_eq_some (Parameter.member?_schema member c)) params
  have strategy : checkStrategy (params.only c.schema) = checkStrategy params := by
    unfold checkStrategy
    rw [same Parameter.strategy (by simp [Parameter.all])]
  unfold override
  rw [check_only, strategy, tuned_congr same]

/-! ### Parameters that are accepted -/

/-- Parameters of the types that a schema declares, with a strategy that there is. -/
structure Agrees (schema params : Json) : Prop where
  typed : ∀ name value type, (name, value) ∈ params.members → Parameters.declared? schema name = some type →
    Json.Typed type value
  known : ∀ name, params.member? "strategy" = some (.text name) →
    name ∈ ["function", "noise", "noisy_function", "random"]

theorem checkStrategy_eq_ok_iff : checkStrategy params = .ok () ↔
    ∀ name, params.member? "strategy" = some (.text name) →
      name ∈ ["function", "noise", "noisy_function", "random"] := by
  have named (name : String) : (params.member? Parameter.strategy.name).bind Json.text? = some name ↔
      params.member? "strategy" = some (.text name) := by
    rw [Option.bind_eq_some_iff]
    constructor
    · rintro ⟨j, listed, text⟩
      rwa [Json.eq_of_text? text] at listed
    · exact fun listed => ⟨_, listed, rfl⟩
  rw [checkStrategy_eq_ok]
  simp only [named, Strategy.isSome_ofName?]

theorem accepts_iff : Accepts params ↔ Agrees c.schema params := by
  constructor
  · rintro ⟨typed, known⟩
    refine ⟨fun name value type listed declared => ?_, checkStrategy_eq_ok_iff.mp known⟩
    exact Parameter.checkMember_eq_ok.mp (Parameters.check_eq_ok.mp (typed c) _ listed) type declared
  · rintro ⟨typed, known⟩
    refine ⟨fun s => Parameters.check_eq_ok.mpr fun member listed => ?_, checkStrategy_eq_ok_iff.mpr known⟩
    refine Parameter.checkMember_eq_ok.mpr fun type declared => ?_
    rw [Parameter.declared?_schema_congr s c] at declared
    exact typed _ _ _ listed declared

theorem exists_override_iff : (∃ out, c.override params = .ok out) ↔ Agrees c.schema params := by
  rw [← accepts_iff]
  constructor
  · rintro ⟨out, done⟩
    exact accepts_of_override done
  · exact fun accepts => ⟨_, accepts.override c⟩

theorem eq_tuned_of_override (done : c.override params = .ok out) : out = c.tuned params :=
  Except.ok.inj (done.symm.trans ((accepts_of_override done).override c))

theorem settles_of_override (done : c.override params = .ok out) {name : String} {entry given : Json}
    (listed : c.schema.member? name = some entry) (present : params.member? name = some given) :
    ∃ value, out.parameters.member? name = some value ∧ Json.Settles entry given value := by
  obtain ⟨p, member, rfl, rfl⟩ := Parameter.exists_of_member?_schema listed
  obtain ⟨v, read⟩ := (accepts_of_override done).given member present
  refine ⟨_, out.member?_parameters member, ?_⟩
  rw [eq_tuned_of_override done, Parameter.get_tuned member, read]
  unfold Parameter.given? at read
  rw [present] at read
  exact (p.stands_entry c).settles (Parameter.lawful_of_mem member).bounded read

theorem within_of_override (done : c.override params = .ok out) {name : String} {value : Json}
    (listed : (name, value) ∈ out.parameters.members) :
    ∃ entry, c.schema.member? name = some entry ∧ Json.Within entry value := by
  obtain ⟨p, member, same⟩ := List.mem_map.mp (Json.mem_members_record listed)
  cases same
  refine ⟨_, Parameter.member?_schema member c, ?_⟩
  exact (p.stands_entry c).within (Parameter.lawful_of_mem member).bounded (inRange_of_override done p member)

/-! ### Overriding setting by setting -/

theorem tuned_eq (s : Settings) (params : Json) :
    s.tuned params = s.tunedEach params ((Parameter.strategy.given? params).getD s.strategy) := by
  unfold tuned Parameter.all
  rfl

theorem strategyIn_eq (params : Json) (s : Settings) :
    strategyIn params s = (checkStrategy params).map fun _ => (Parameter.strategy.given? params).getD s.strategy := by
  have given : Parameter.strategy.given? params =
      ((params.member? Parameter.strategy.name).bind Json.text?).bind Strategy.ofName? := by
    rw [Option.bind_assoc]
    rfl
  have named : Parameter.strategy.name = "strategy" := rfl
  rw [given]
  unfold strategyIn checkStrategy Parameters.text
  rw [named]
  cases (params.member? "strategy").bind Json.text? with
  | none =>
      dsimp only
      rw [Option.getD_none, Strategy.ofName?_name]
      rfl
  | some name =>
      dsimp only [Option.getD_some, Option.bind_some]
      cases Strategy.ofName? name with
      | none => rfl
      | some strategy => rfl

theorem overrideEach_eq (s : Settings) (params : Json) : s.overrideEach params = s.override params := by
  unfold overrideEach override
  rw [tuned_eq, strategyIn_eq]
  cases Parameters.check s.schema params with
  | error fault => rfl
  | ok _ => cases checkStrategy params <;> rfl

/-- Overriding by the table of parameters is overriding setting by setting. It succeeds exactly if what is given has the
types that the schema declares and names a strategy that there is, and what the schema does not list has no influence.
On success every value that is given and listed takes effect, within the bounds of the schema, all values are within
them, and nothing but the parameters changes. -/
theorem override_by_schema (c : Settings) (params : Json) :
    c.overrideEach params = c.override params ∧
    ((∃ out, c.override params = .ok out) ↔ Agrees c.schema params) ∧
    c.override (params.only c.schema) = c.override params ∧
    ∀ out, c.override params = .ok out →
      (∀ name entry given, c.schema.member? name = some entry → params.member? name = some given →
        ∃ value, out.parameters.member? name = some value ∧ Json.Settles entry given value) ∧
      (∀ name value, (name, value) ∈ out.parameters.members →
        ∃ entry, c.schema.member? name = some entry ∧ Json.Within entry value) ∧
      c.graft out = out := by
  refine ⟨overrideEach_eq c params, exists_override_iff, override_only c params, fun out done => ⟨?_, ?_, ?_⟩⟩
  · exact fun name entry given listed present => settles_of_override done listed present
  · exact fun name value listed => within_of_override done listed
  · rw [eq_tuned_of_override done, graft_tuned]

theorem unbounded_override_by_schema :
    let wild : Settings := { Settings.standard with persistence := Scalar.nan }
    let params : Json := .object
      [("decay", .whole 3), ("glow", .null), ("particle_count", .whole 99999), ("strategy", .text "noise")]
    (∃ out, wild.override params = .ok out ∧ wild.override (params.only wild.schema) = .ok out ∧
      wild.graft out = out ∧
      (∃ entry value, wild.schema.member? "particle_count" = some entry ∧
        out.parameters.member? "particle_count" = some value ∧ Json.Settles entry (.whole 99999) value) ∧
      ∃ entry value, wild.schema.member? "decay" = some entry ∧ out.parameters.member? "decay" = some value ∧
        Json.Within entry value) ∧
      ¬ ∃ out, wild.override (.object [("decay", .text "0.5")]) = .ok out := by
  intro wild params
  have count : Parameter.particleCount ∈ Parameter.all := by simp [Parameter.all]
  have decay : Parameter.persistence ∈ Parameter.all := by simp [Parameter.all]
  constructor
  · obtain ⟨-, -, restricted, sound⟩ := override_by_schema wild params
    have accepted : (wild.override params).toOption.isSome = true := by decide +kernel
    obtain ⟨out, done⟩ := exists_of_isSome_toOption accepted
    obtain ⟨effect, bounds, rest⟩ := sound out done
    refine ⟨out, done, restricted.trans done, rest, ?_, ?_⟩
    · have listed := Parameter.member?_schema count wild
      obtain ⟨value, tuned, settled⟩ := effect _ _ (.whole 99999) listed rfl
      exact ⟨_, value, listed, tuned, settled⟩
    · have tuned := out.member?_parameters decay
      have member := tuned
      rw [Json.member?_eq] at member
      obtain ⟨entry, listed, within⟩ := bounds _ _ (Dictionary.mem_of_find? member)
      exact ⟨entry, _, listed, tuned, within⟩
  · obtain ⟨-, accepted, -⟩ := override_by_schema wild (.object [("decay", .text "0.5")])
    rw [accepted]
    rintro ⟨typed, -⟩
    have mistyped := typed _ _ _ List.mem_cons_self (Parameter.declared?_schema decay wild)
    cases Domain.admits_of_typed mistyped

end Settings

end DriftField
