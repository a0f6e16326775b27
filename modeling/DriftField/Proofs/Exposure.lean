import Mathlib
import DriftField.Proofs.Command.Replay
import DriftField.Proofs.Engine.Operation
import DriftField.Proofs.Settings.Lens
/-!
Pictures always come to an end. In the settings of a request the count is within its bounds and the ceiling is three
times as much, so no burst and no tick computes a population that is not a machine word.
-/

namespace DriftField

namespace Exposure

variable {e : Engine}

theorem step?_eq_some (delta fade : Float) {state : Engine × Canvas} (fits : state.1.swarm.settings.CeilingFits) :
    step? delta fade state = some (step delta fade state) := by
  unfold step?
  rw [Engine.tick?_eq, if_pos fits]
  rfl

theorem expose?_eq_some (fits : e.swarm.settings.CeilingFits) (c : Canvas) (ticks : Nat) (delta : Float) :
    expose? e c ticks delta = some (expose e c ticks delta) := by
  have run (fade : Float) (n : Nat) :
      Nat.repeat (·.bind (step? delta fade)) n (some (e, c)) = some (Nat.repeat (step delta fade) n (e, c)) ∧
        (Nat.repeat (step delta fade) n (e, c)).1.swarm.settings = e.swarm.settings := by
    induction n with
    | zero => exact ⟨rfl, rfl⟩
    | succ n induction =>
        obtain ⟨run, settings⟩ := induction
        refine ⟨?_, settings⟩
        rw [Nat.repeat, run, Option.bind_some, step?_eq_some delta fade (by rw [settings]; exact fits)]
        rfl
  unfold expose?
  rw [(run _ ticks).1]
  rfl

end Exposure

namespace RenderRequest

open Command

variable {r : RenderRequest} {s : Settings} {e next : Engine} {view : Viewport} {files : Files}

structure Modest (s : SwarmSettings) : Prop where
  count : s.count ≤ 20000
  factor : s.ceilingFactor = 3

namespace Modest

theorem fits {s : SwarmSettings} (modest : Modest s) : s.CeilingFits ∧ s.afterBurst < UInt64.size := by
  have count := modest.count
  unfold SwarmSettings.CeilingFits SwarmSettings.ceiling SwarmSettings.afterBurst SwarmSettings.positiveCount
  rw [modest.factor]
  change 3 * max s.count 1 < 2 ^ 64 ∧ 2 * max s.count 1 < 2 ^ 64
  omega

theorem withShare (modest : Modest s.swarm) (share : Share) : Modest (s.withShare share).swarm :=
  ⟨Nat.min_le_right _ _, modest.factor⟩

theorem startEngine {start : RenderStart} (modest : Modest s.swarm) (done : startEngine view s start = .ok e) :
    Modest e.swarm.settings := by
  cases start with
  | seed seed =>
      obtain ⟨field, stream, -, rfl⟩ := Engine.start_eq_ok.mp (ok_of_lift_eq_ok done)
      exact modest
  | share code =>
      obtain ⟨share, -, done⟩ := exists_of_bind_eq_ok done
      obtain ⟨field, stream, -, rfl⟩ := Engine.start_eq_ok.mp (ok_of_lift_eq_ok done)
      exact modest.withShare share

theorem takeSource {source : Option String} (modest : Modest e.swarm.settings)
    (done : takeSource files e source = .ok next) : Modest next.swarm.settings := by
  cases source with
  | none =>
      cases done
      exact modest
  | some path =>
      obtain ⟨code, -, done⟩ := exists_of_bind_eq_ok done
      obtain ⟨f, -, rfl⟩ := Engine.loadSource_eq_ok (ok_of_lift_eq_ok done)
      exact modest

theorem takePointer {pointer : Option String} (modest : Modest e.swarm.settings)
    (done : takePointer e pointer = .ok next) : Modest next.swarm.settings := by
  unfold RenderRequest.takePointer at done
  split at done
  · cases done
    exact modest
  · split at done
    · cases done
      exact modest
    · cases done

end Modest

theorem ceilingFactor_override {params : Json} {out : Settings} (done : s.override params = .ok out) :
    out.swarm.ceilingFactor = s.swarm.ceilingFactor := by
  unfold Settings.override at done
  obtain ⟨-, -, done⟩ := exists_of_bind_eq_ok done
  obtain ⟨-, -, done⟩ := exists_of_bind_eq_ok done
  cases done
  rw [← Settings.graft_tuned]
  rfl

theorem modest_settings (accepted : r.settings = .ok s) : Modest s.swarm := by
  refine ⟨inRange_settings accepted Parameter.particleCount (by simp [Parameter.all]), ?_⟩
  unfold settings at accepted
  split at accepted
  · obtain ⟨preset, named, accepted⟩ := exists_of_bind_eq_ok accepted
    obtain ⟨out, overridden, accepted⟩ := exists_of_bind_eq_ok accepted
    cases accepted
    refine (ceilingFactor_override (ok_of_lift_eq_ok overridden)).trans ?_
    unfold presetSettings at named
    split at named
    · next p _ =>
      cases named
      cases p <;> rfl
    · cases named
  · cases accepted

/-- The burst that a request asks for and all its ticks come to an end. -/
theorem exposure_ends {result : Engine × Canvas} (done : r.exposure files = .ok result) :
    ∃ placed first empty, ({ r with burst := none } : RenderRequest).engine files = .ok placed ∧
      r.burst.elim (some placed) placed.burst? = some first ∧ r.canvas = .ok empty ∧
      Exposure.expose? first empty r.ticks r.delta = some result := by
  obtain ⟨e, c⟩ := result
  obtain ⟨first, empty, built, blank, exposed⟩ := exposure_eq_ok.mp done
  obtain ⟨s, view, started, sourced, placed, accepted, sized, created, loaded, pointed, rfl⟩ := engine_eq_ok.mp built
  have modest := (((modest_settings accepted).startEngine created).takeSource loaded).takePointer pointed
  obtain ⟨ceiling, doubled⟩ := modest.fits
  have whole : ({ r with burst := none } : RenderRequest).engine files = .ok placed :=
    engine_eq_ok.mpr ⟨s, view, started, sourced, placed, accepted, sized, created, loaded, pointed, rfl⟩
  refine ⟨placed, r.burst.elim placed placed.burst, empty, whole, ?_, blank, ?_⟩
  · cases r.burst with
    | none => rfl
    | some n =>
        change placed.burst? n = some (placed.burst n)
        rw [Engine.burst?_eq, if_pos ⟨ceiling, fun _ => doubled⟩]
  · rw [exposed]
    apply Exposure.expose?_eq_some
    cases r.burst with
    | none => exact ceiling
    | some n => exact ceiling

end RenderRequest

end DriftField
