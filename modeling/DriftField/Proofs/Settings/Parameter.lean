import Mathlib
import DriftField.Proofs.Scalar.Order
import DriftField.Proofs.Share
import DriftField.Settings.Parameter
/-!
The parameters are places in the settings that do not touch each other, so that overriding brings every one of them
within its bounds, and a share code changes nothing in settings that are within theirs.
-/

namespace DriftField

namespace Domain

def Admits : (d : Domain) → d.Value → Prop
  | .count most, n => n ≤ most
  | .number low high, v => low ≤ v ∧ v ≤ high
  | .strategy, _ | .flag, _ => True

/-- The bounds of a domain are finite and in order. -/
def Bounded : Domain → Prop
  | .number low high => Scalar.isFinite low = true ∧ Scalar.isFinite high = true ∧ low ≤ high
  | .count _ | .strategy | .flag => True

theorem admits_confine {d : Domain} (bounded : d.Bounded) (v : d.Value) : d.Admits (d.confine v) := by
  cases d with
  | count most => exact Nat.min_le_right v most
  | number low high => exact Scalar.within_mem bounded.2.2 v
  | strategy => exact trivial
  | flag => exact trivial

theorem confine_eq_self {d : Domain} {v : d.Value} (admits : d.Admits v) : d.confine v = v := by
  cases d with
  | count most => exact Nat.min_eq_left admits
  | number low high => exact Scalar.within_eq_self admits.1 admits.2
  | strategy => rfl
  | flag => rfl

end Domain

namespace Parameter

/-- A parameter is one place in the settings. -/
structure Lawful (p : Parameter) : Prop where
  bounded : p.domain.Bounded
  get_set : ∀ s v, p.get (p.set s v) = v
  set_get : ∀ s, p.set s (p.get s) = s

/-- Neither of two parameters changes with the other. -/
structure Apart (p q : Parameter) : Prop where
  left : ∀ s v, p.get (q.set s v) = p.get s
  right : ∀ s v, q.get (p.set s v) = q.get s

variable {p q : Parameter} {s : Settings}

theorem lawful_of_mem (member : p ∈ all) : p.Lawful := by
  unfold all at member
  simp only [List.mem_cons, List.not_mem_nil, or_false] at member
  rcases member with rfl | rfl | rfl | rfl | rfl | rfl | rfl | rfl | rfl | rfl | rfl | rfl | rfl
  all_goals
    refine ⟨?_, fun _ _ => rfl, fun _ => rfl⟩
    first
      | exact trivial
      | exact ⟨by decide, by decide, by decide⟩

theorem all_apart : all.Pairwise Apart := by
  unfold all
  simp only [List.pairwise_cons, List.forall_mem_cons, List.not_mem_nil, IsEmpty.forall_iff, implies_true,
    List.Pairwise.nil, and_true]
  repeat' apply And.intro
  all_goals exact ⟨fun _ _ => rfl, fun _ _ => rfl⟩

instance : Std.Symm Apart := ⟨fun _ _ apart => ⟨apart.right, apart.left⟩⟩

theorem get_foldl_apply {params : Json} {qs : List Parameter} (apart : ∀ q ∈ qs, Apart p q) (s : Settings) :
    p.get (qs.foldl (apply params) s) = p.get s := by
  induction qs generalizing s with
  | nil => rfl
  | cons q qs induction =>
      rw [List.foldl_cons, induction fun q member => apart q (List.mem_cons_of_mem _ member)]
      exact (apart q List.mem_cons_self).left s _

/-- What a parameter is set to stays, since no later parameter touches it. -/
theorem admits_get_foldl_apply {params : Json} {ps : List Parameter} (apart : ps.Pairwise Apart)
    (lawful : ∀ p ∈ ps, p.Lawful) (member : p ∈ ps) (s : Settings) :
    p.domain.Admits (p.get (ps.foldl (apply params) s)) := by
  induction ps generalizing s with
  | nil => cases member
  | cons first rest induction =>
      rw [List.pairwise_cons] at apart
      rw [List.foldl_cons]
      rcases List.mem_cons.mp member with rfl | later
      · have own := lawful p List.mem_cons_self
        rw [get_foldl_apply apart.1]
        unfold apply put
        rw [own.get_set]
        exact Domain.admits_confine own.bounded _
      · exact induction apart.2 (fun p member => lawful p (List.mem_cons_of_mem _ member)) later _

end Parameter

namespace Settings

/-- Every parameter is within its bounds. -/
def InRange (s : Settings) : Prop := ∀ p ∈ Parameter.all, p.domain.Admits (p.get s)

variable {s : Settings} {p : Parameter}

theorem inRange_tuned (s : Settings) (params : Json) : (s.tuned params).InRange := fun _ member =>
  Parameter.admits_get_foldl_apply Parameter.all_apart (fun _ => Parameter.lawful_of_mem) member s

theorem inRange_of_override {params : Json} {out : Settings} (done : s.override params = .ok out) :
    out.InRange := by
  unfold override at done
  obtain ⟨-, -, done⟩ := exists_of_bind_eq_ok done
  obtain ⟨-, -, done⟩ := exists_of_bind_eq_ok done
  cases done
  exact inRange_tuned s params

theorem InRange.set (inRange : s.InRange) (member : p ∈ Parameter.all) {v : p.domain.Value}
    (admits : p.domain.Admits v) : (p.set s v).InRange := by
  intro q member'
  by_cases same : q = p
  · subst same
    rw [(Parameter.lawful_of_mem member).get_set]
    exact admits
  · have apart := Parameter.all_apart.forall member' member same
    rw [apart.left]
    exact inRange q member'

theorem InRange.put_get (inRange : s.InRange) (member : p ∈ Parameter.all) : p.put (p.get s) s = s := by
  unfold Parameter.put
  rw [Domain.confine_eq_self (inRange p member), (Parameter.lawful_of_mem member).set_get]

theorem InRange.withShare_share (inRange : s.InRange) (seed : UInt64) : s.withShare (s.share seed) = s := by
  have count := inRange.put_get (p := Parameter.particleCount) (by simp [Parameter.all])
  have flow := inRange.put_get (p := Parameter.intensity) (by simp [Parameter.all])
  have scale := inRange.put_get (p := Parameter.zoom) (by simp [Parameter.all])
  have decay := inRange.put_get (p := Parameter.persistence) (by simp [Parameter.all])
  change Parameter.persistence.put (Parameter.persistence.get s) (Parameter.zoom.put (Parameter.zoom.get s)
    (Parameter.intensity.put (Parameter.intensity.get s)
      (Parameter.particleCount.put (Parameter.particleCount.get s) s))) = s
  rw [count, flow, scale, decay]

theorem InRange.decode_share (inRange : s.InRange) (seed : UInt64) :
    Share.decode (s.share seed).encode = .ok (s.share seed) := by
  have count : s.swarm.count ≤ 20000 := inRange Parameter.particleCount (by simp [Parameter.all])
  have flow := inRange Parameter.intensity (by simp [Parameter.all])
  have scale := inRange Parameter.zoom (by simp [Parameter.all])
  have decay := inRange Parameter.persistence (by simp [Parameter.all])
  refine Share.decode_encode_of_isFinite (count.trans_lt (by decide)) ?_ ?_ ?_
  · exact Scalar.isFinite_of_mem (by decide) (by decide) flow.1 flow.2
  · exact Scalar.isFinite_of_mem (by decide) (by decide) scale.1 scale.2
  · exact Scalar.isFinite_of_mem (by decide) (by decide) decay.1 decay.2

end Settings

end DriftField
