import Mathlib
import DriftField.Proofs.Settings.Lens
import DriftField.Settings.Override
/-!
Assignments to parameters. To override settings with assignments written as JSON is to make them one after another, in
whatever way the assignments have come about.
-/

namespace DriftField

theorem Parameter.apart_of_name_ne {p q : Parameter} (member : p ∈ all) (member' : q ∈ all) (other : p.name ≠ q.name) :
    Apart p q := all_apart.forall member member' fun same => other (same ▸ rfl)

theorem Parameter.eq_of_name_eq {p q : Parameter} (member : p ∈ all) (member' : q ∈ all) (same : p.name = q.name) :
    p = q := List.inj_on_of_nodup_map names_nodup member member' same

structure Assignment where
  parameter : Parameter
  value : parameter.domain.Value

namespace Assignment

variable {a : Assignment} {as : List Assignment} {p : Parameter} {c s : Settings}

def member (a : Assignment) : String × Json := (a.parameter.name, a.parameter.domain.toJson a.value)

def params (as : List Assignment) : Json := Json.record (as.map member)

def make (s : Settings) (a : Assignment) : Settings := a.parameter.put a.value s

structure Proper (as : List Assignment) : Prop where
  known : ∀ a ∈ as, a.parameter ∈ Parameter.all
  distinct : (as.map fun a => a.parameter.name).Nodup
  carried : ∀ a ∈ as, a.parameter.domain.ofJson? (a.parameter.domain.toJson a.value) = some a.value

/-! ### What assignments change -/

theorem get_foldl_make_of_apart (apart : ∀ a ∈ as, Parameter.Apart p a.parameter) (s : Settings) :
    p.get (as.foldl make s) = p.get s := by
  induction as generalizing s with
  | nil => rfl
  | cons first rest induction =>
      rw [List.foldl_cons, induction fun a member => apart a (List.mem_cons_of_mem _ member)]
      exact (apart first List.mem_cons_self).left s _

/-- What is assigned stays, since no later assignment is to the same parameter. -/
theorem get_foldl_make (proper : Proper as) (member : a ∈ as) (s : Settings) :
    a.parameter.get (as.foldl make s) = a.parameter.domain.confine a.value := by
  induction as generalizing s with
  | nil => cases member
  | cons first rest induction =>
      obtain ⟨known, distinct, carried⟩ := proper
      rw [List.map_cons, List.nodup_cons] at distinct
      rw [List.foldl_cons]
      rcases List.mem_cons.mp member with rfl | later
      · rw [get_foldl_make_of_apart]
        · exact (Parameter.lawful_of_mem (known a List.mem_cons_self)).get_set s _
        · intro other later
          refine Parameter.apart_of_name_ne (known a List.mem_cons_self) (known other (List.mem_cons_of_mem _ later)) ?_
          exact fun same => distinct.1 (same ▸ List.mem_map_of_mem (f := fun a : Assignment => a.parameter.name) later)
      · refine induction ⟨?_, distinct.2, ?_⟩ later _
        · exact fun a member => known a (List.mem_cons_of_mem _ member)
        · exact fun a member => carried a (List.mem_cons_of_mem _ member)

theorem graft_foldl_make (known : ∀ a ∈ as, a.parameter ∈ Parameter.all) (kept : s.graft c = c) :
    s.graft (as.foldl make c) = as.foldl make c := by
  induction as generalizing c with
  | nil => exact kept
  | cons first rest induction =>
      refine induction (fun a member => known a (List.mem_cons_of_mem _ member)) ?_
      unfold make Parameter.put
      rw [Settings.graft_set (known first List.mem_cons_self), kept]

theorem inRange_foldl_make (known : ∀ a ∈ as, a.parameter ∈ Parameter.all) (inRange : c.InRange) :
    (as.foldl make c).InRange := by
  induction as generalizing c with
  | nil => exact inRange
  | cons first rest induction =>
      refine induction (fun a member => known a (List.mem_cons_of_mem _ member)) ?_
      have member := known first List.mem_cons_self
      exact inRange.set member (Domain.admits_confine (Parameter.lawful_of_mem member).bounded first.value)

/-! ### Assignments as JSON -/

theorem given?_params (proper : Proper as) (member : a ∈ as) : a.parameter.given? (params as) = some a.value := by
  have names : (as.map Assignment.member).map Prod.fst = as.map fun a => a.parameter.name := by
    rw [List.map_map]
    rfl
  have listed : (params as).member? a.parameter.name = some (a.parameter.domain.toJson a.value) :=
    Json.member?_record (names ▸ proper.distinct) (List.mem_map_of_mem (f := Assignment.member) member)
  unfold Parameter.given?
  rw [listed]
  exact proper.carried a member

theorem given?_params_eq_none (unassigned : ∀ a ∈ as, a.parameter.name ≠ p.name) : p.given? (params as) = none := by
  have unlisted : (params as).member? p.name = none := by
    refine Json.member?_record_eq_none fun entry listed => ?_
    obtain ⟨a, member, rfl⟩ := List.mem_map.mp listed
    exact unassigned a member
  unfold Parameter.given?
  rw [unlisted]
  rfl

theorem accepts_params (proper : Proper as) : Settings.Accepts (params as) where
  typed s := by
    rw [Parameters.check_eq_ok]
    intro entry listed
    obtain ⟨a, member, rfl⟩ := List.mem_map.mp (Json.mem_members_record listed)
    exact (Parameters.checkMember_eq_ok (Parameter.declared?_schema (proper.known a member) s)).mpr
      (Domain.admits_of_ofJson? (proper.carried a member))
  known := by
    rw [Settings.checkStrategy_eq_ok]
    intro name named
    obtain ⟨j, listed, text⟩ := Option.bind_eq_some_iff.mp named
    rw [Json.member?_eq] at listed
    obtain ⟨⟨p, v⟩, member, same⟩ := List.mem_map.mp (Json.mem_members_record (Dictionary.mem_of_find? listed))
    obtain ⟨called, rfl⟩ := Prod.mk.inj same
    obtain rfl := Parameter.eq_of_name_eq (proper.known _ member) (by simp [Parameter.all]) called
    obtain rfl : Strategy.name v = name := Option.some.inj text
    exact Option.isSome_of_eq_some (Strategy.ofName?_name v)

theorem tuned_params (proper : Proper as) (inRange : c.InRange) : c.tuned (params as) = as.foldl make c := by
  rw [← Settings.graft_tuned c, ← graft_foldl_make proper.known c.graft_self]
  refine Settings.graft_congr fun p member => ?_
  rw [Parameter.get_tuned member]
  by_cases assigned : ∃ a ∈ as, a.parameter.name = p.name
  · obtain ⟨a, member', same⟩ := assigned
    obtain rfl := Parameter.eq_of_name_eq (proper.known a member') member same
    rw [given?_params proper member', get_foldl_make proper member']
    rfl
  · have unassigned : ∀ a ∈ as, a.parameter.name ≠ p.name := fun a member' same => assigned ⟨a, member', same⟩
    rw [given?_params_eq_none unassigned, get_foldl_make_of_apart]
    · exact Domain.confine_eq_self (inRange p member)
    · exact fun a member' =>
        Parameter.apart_of_name_ne member (proper.known a member') (Ne.symm (unassigned a member'))

theorem override_params (proper : Proper as) (inRange : c.InRange) :
    c.override (params as) = .ok (as.foldl make c) := by
  rw [(accepts_params proper).override, tuned_params proper inRange]

end Assignment

namespace Settings

variable {c : Settings}

def assignmentsOf (share : Share) : List Assignment :=
  [⟨.particleCount, share.count⟩, ⟨.intensity, share.flow⟩, ⟨.zoom, share.scale⟩, ⟨.persistence, share.decay⟩]

theorem withShare_eq_foldl (s : Settings) (share : Share) :
    s.withShare share = (assignmentsOf share).foldl Assignment.make s := rfl

theorem mem_all_of_assignmentsOf (share : Share) : ∀ a ∈ assignmentsOf share, a.parameter ∈ Parameter.all := by
  simp [assignmentsOf, Parameter.all]

theorem proper_assignmentsOf {share : Share} (flow : Scalar.isFinite share.flow = true)
    (scale : Scalar.isFinite share.scale = true) (decay : Scalar.isFinite share.decay = true) :
    Assignment.Proper (assignmentsOf share) where
  known := mem_all_of_assignmentsOf share
  distinct := by
    change ["particle_count", "flow_intensity", "scale", "decay"].Nodup
    decide
  carried := by
    simp only [assignmentsOf, List.forall_mem_cons, List.not_mem_nil, IsEmpty.forall_iff, implies_true, and_true]
    exact ⟨rfl, Json.float?_ofFloat flow, Json.float?_ofFloat scale, Json.float?_ofFloat decay⟩

/-- For settings within the bounds, a share code and its values as parameters come to the same, whatever the values are,
and the share code of what they come to changes nothing more. -/
theorem share_by_override (c : Settings) (inRange : c.InRange) (share : Share)
    (flow : Scalar.isFinite share.flow = true) (scale : Scalar.isFinite share.scale = true)
    (decay : Scalar.isFinite share.decay = true) :
    c.override (Json.record [("particle_count", Json.ofNat share.count), ("flow_intensity", Json.ofFloat share.flow),
      ("scale", Json.ofFloat share.scale), ("decay", Json.ofFloat share.decay)]) = .ok (c.withShare share) ∧
    c.withShareEach share = c.withShare share ∧
    ∀ seed, (c.withShare share).withShare ((c.withShare share).share seed) = c.withShare share := by
  have inRange' : (c.withShare share).InRange := by
    rw [withShare_eq_foldl]
    exact Assignment.inRange_foldl_make (mem_all_of_assignmentsOf share) inRange
  refine ⟨?_, rfl, inRange'.withShare_share⟩
  rw [withShare_eq_foldl]
  exact Assignment.override_params (proper_assignmentsOf flow scale decay) inRange

theorem storm_share_by_override :
    let storm := Preset.storm.settings
    let share : Share := ⟨7, 2 ^ 64 - 1, -1000000.0, 0.0, 5.0⟩
    storm.InRange ∧ share.count = 18446744073709551615 ∧
      storm.override (Json.record [("particle_count", Json.ofNat share.count),
        ("flow_intensity", Json.ofFloat share.flow), ("scale", Json.ofFloat share.scale),
        ("decay", Json.ofFloat share.decay)]) = .ok (storm.withShare share) ∧
      storm.withShareEach share = storm.withShare share ∧
      (storm.withShare share).withShare ((storm.withShare share).share 7) = storm.withShare share := by
  intro storm share
  have inRange : storm.InRange := inRange_preset .storm
  obtain ⟨overridden, each, again⟩ :=
    share_by_override storm inRange share (by decide) (by decide) (by decide)
  exact ⟨inRange, by decide, overridden, each, again 7⟩

end Settings

end DriftField
