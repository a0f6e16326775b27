import Mathlib
import DriftField.Command.Render
import DriftField.Proofs.Engine.Run
import DriftField.Proofs.Settings.Parameter
/-!
The share code of a picture in place of its seed gives the same picture: the settings of a request are within their
bounds, where the code writes and reads them without loss, and nothing before the code is taken changes them.
-/

namespace DriftField

theorem Exposure.share?_expose (e : Engine) (c : Canvas) (ticks : Nat) (delta : Float) :
    (expose e c ticks delta).1.share? = e.share? := by
  have steps (fade : Float) (n : Nat) : (Nat.repeat (step delta fade) n (e, c)).1.share? = e.share? := by
    induction n with
    | zero => rfl
    | succ n induction => exact (Engine.share?_tick _ delta).trans induction
  exact steps _ ticks

namespace RenderRequest

open Command

variable {r : RenderRequest} {s : Settings} {e next : Engine} {view : Viewport} {seed : UInt64} {files : Files}

theorem ok_of_lift_eq_ok {α ε : Type} {f : ε → Fault} {x : Except ε α} {a : α} (h : lift f x = .ok a) :
    x = .ok a := by
  cases x with
  | error fault => cases h
  | ok b =>
      cases h
      rfl

theorem settings_of_read {params : Json} (read : Json.read? r.parameters = some params) :
    r.settings = (do
      let s ← presetSettings r.preset
      let s ← lift .parameter (s.override params)
      return { s with showField := s.showField || r.showField }) := by
  unfold settings
  rw [read]

theorem inRange_settings (accepted : r.settings = .ok s) : s.InRange := by
  unfold settings at accepted
  split at accepted
  · obtain ⟨preset, -, accepted⟩ := exists_of_bind_eq_ok accepted
    obtain ⟨out, overridden, accepted⟩ := exists_of_bind_eq_ok accepted
    have inRange := Settings.inRange_of_override (ok_of_lift_eq_ok overridden)
    cases accepted
    exact inRange.set (p := Parameter.showField) (by simp [Parameter.all]) trivial
  · cases accepted

theorem share?_takePointer {pointer : Option String} (done : takePointer e pointer = .ok next) :
    next.share? = e.share? := by
  unfold takePointer at done
  split at done
  · cases done
    rfl
  · split at done
    · cases done
      exact Engine.share?_setPointer _ _
    · cases done

theorem startEngine_share (inRange : s.InRange) (view : Viewport) (seed : UInt64) :
    startEngine view s (.share (s.share seed).encode) = startEngine view s (.seed seed) := by
  have decoded := inRange.decode_share seed
  have unchanged := inRange.withShare_share seed
  unfold startEngine
  simp only [decoded]
  unfold Engine.ofShare
  change lift id (Engine.start view (s.withShare (s.share seed)) seed) = _
  rw [unchanged]

def withShare (r : RenderRequest) (share : Share) : RenderRequest := { r with start := .share share.encode }

theorem engine_withShare (started : r.start = .seed seed) (accepted : r.settings = .ok s) (files : Files) :
    (r.withShare (s.share seed)).engine files = r.engine files := by
  have inRange := inRange_settings accepted
  have accepted' : (r.withShare (s.share seed)).settings = .ok s := accepted
  have starts (view : Viewport) :
      startEngine view s (r.withShare (s.share seed)).start = startEngine view s r.start := by
    rw [started]
    exact startEngine_share inRange view seed
  unfold engine
  rw [accepted, accepted']
  simp only [bind, Except.bind, starts]
  rfl

theorem engine_eq_ok : r.engine files = .ok e ↔
    ∃ s view first sourced placed, r.settings = .ok s ∧ r.view = .ok view ∧
      startEngine view s r.start = .ok first ∧ takeSource files first r.sourceFile = .ok sourced ∧
      takePointer sourced r.pointer = .ok placed ∧ e = r.burst.elim placed placed.burst := by
  constructor
  · intro done
    obtain ⟨s, accepted, done⟩ := exists_of_bind_eq_ok done
    obtain ⟨view, sized, done⟩ := exists_of_bind_eq_ok done
    obtain ⟨first, created, done⟩ := exists_of_bind_eq_ok done
    obtain ⟨sourced, loaded, done⟩ := exists_of_bind_eq_ok done
    obtain ⟨placed, pointed, done⟩ := exists_of_bind_eq_ok done
    exact ⟨s, view, first, sourced, placed, accepted, sized, created, loaded, pointed,
      (Except.ok.inj done).symm⟩
  · rintro ⟨s, view, first, sourced, placed, accepted, sized, created, loaded, pointed, rfl⟩
    unfold engine
    rw [accepted, sized]
    change (startEngine view s r.start >>= _) = _
    rw [created]
    change (takeSource files first r.sourceFile >>= _) = _
    rw [loaded]
    change (takePointer sourced r.pointer >>= _) = _
    rw [pointed]
    rfl

theorem exposure_eq_ok {c : Canvas} : r.exposure files = .ok (e, c) ↔
    ∃ first empty, r.engine files = .ok first ∧ r.canvas = .ok empty ∧
      (e, c) = Exposure.expose first empty r.ticks r.delta := by
  constructor
  · intro done
    obtain ⟨first, built, done⟩ := exists_of_bind_eq_ok done
    obtain ⟨empty, blank, done⟩ := exists_of_bind_eq_ok done
    exact ⟨first, empty, built, blank, (Except.ok.inj done).symm⟩
  · rintro ⟨first, empty, built, blank, exposed⟩
    unfold exposure
    rw [built, blank, exposed]
    rfl

theorem share?_engine (started : r.start = .seed seed) (unsourced : r.sourceFile = none)
    (accepted : r.settings = .ok s) (done : r.engine files = .ok e) : e.share? = some (s.share seed) := by
  obtain ⟨s', view, first, sourced, placed, accepted', -, created, loaded, pointed, rfl⟩ := engine_eq_ok.mp done
  cases Except.ok.inj (accepted.symm.trans accepted')
  rw [unsourced] at loaded
  cases loaded
  rw [started] at created
  obtain ⟨field, stream, -, rfl⟩ := Engine.start_eq_ok.mp (ok_of_lift_eq_ok created)
  have spared : (r.burst.elim placed placed.burst).share? = placed.share? := by
    cases r.burst with
    | none => rfl
    | some n => exact Engine.share?_burst placed n
  rw [spared, share?_takePointer pointed]
  rfl

/-- A picture that a seed determines has a share code, and the code in place of the seed gives the same engine, the
same picture and the same answer. -/
theorem share_replays (started : r.start = .seed seed) (unsourced : r.sourceFile = none) {c : Canvas}
    (done : r.exposure files = .ok (e, c)) :
    ∃ share, e.share? = some share ∧
      (r.withShare share).exposure files = .ok (e, c) ∧
      (r.withShare share).report e = r.report e ∧
      ∀ json, (r.withShare share).answer json files = r.answer json files := by
  obtain ⟨first, empty, built, -, exposed⟩ := exposure_eq_ok.mp done
  obtain ⟨s, -, -, -, -, accepted, -⟩ := engine_eq_ok.mp built
  have exposure : (r.withShare (s.share seed)).exposure files = r.exposure files := by
    unfold RenderRequest.exposure
    rw [engine_withShare started accepted files]
    rfl
  refine ⟨s.share seed, ?_, exposure.trans done, rfl, fun json => ?_⟩
  · have final : e = (Exposure.expose first empty r.ticks r.delta).1 := congrArg Prod.fst exposed
    rw [final, Exposure.share?_expose]
    exact share?_engine started unsourced accepted built
  · unfold answer
    rw [exposure]
    rfl

def noisyStorm : RenderRequest where
  preset := "storm"
  start := .seed 7
  sourceFile := none
  width := 64
  height := 48
  ticks := 3
  delta := 16.67
  pointer := some "10,20"
  burst := some 5
  showField := true
  parameters := "\x7b\"strategy\":\"noise\",\"particle_count\":99999\x7d"
  output := "storm.png"

theorem noisyStorm_settings : ∃ s, noisyStorm.settings = .ok s ∧ s.strategy = .noise := by
  have text : Json.read? "\x7b\"strategy\":\"noise\",\"particle_count\":99999\x7d" =
      some (.object [("particle_count", .whole 99999), ("strategy", .text "noise")]) := by cbv
  have read : Json.read? noisyStorm.parameters =
      some (.object [("particle_count", .whole 99999), ("strategy", .text "noise")]) := text
  have noise : noisyStorm.settings.toOption.map (·.strategy) = some .noise := by
    rw [settings_of_read read]
    decide +kernel
  cases accepted : noisyStorm.settings with
  | error fault =>
      rw [accepted] at noise
      cases noise
  | ok s =>
      rw [accepted] at noise
      exact ⟨s, rfl, Option.some.inj noise⟩

theorem noisyStorm_share_replays :
    ∃ e c share, noisyStorm.exposure (fun _ => .error .absent) = .ok (e, c) ∧ e.share? = some share ∧
      (noisyStorm.withShare share).exposure (fun _ => .error .absent) = .ok (e, c) ∧
      (noisyStorm.withShare share).report e = noisyStorm.report e ∧
      ∀ json, (noisyStorm.withShare share).answer json (fun _ => .error .absent) =
        noisyStorm.answer json (fun _ => .error .absent) := by
  obtain ⟨s, accepted, strategy⟩ := noisyStorm_settings
  obtain ⟨view, sized⟩ : ∃ view, noisyStorm.view = .ok view := ⟨_, rfl⟩
  obtain ⟨empty, blank⟩ : ∃ c, noisyStorm.canvas = .ok c := ⟨_, rfl⟩
  obtain ⟨p, pointed⟩ : ∃ p, pointerOf? "10,20" = some p :=
    Option.isSome_iff_exists.mp (by decide +kernel)
  obtain ⟨first, n, created, -⟩ := Engine.start_noise s strategy view 7
  have taken : startEngine view s noisyStorm.start = .ok first := congrArg (lift id) created
  have placed : takePointer first noisyStorm.pointer = .ok (first.setPointer (some p)) := by
    change takePointer first (some "10,20") = _
    simp only [takePointer, pointed]
  obtain ⟨e, built⟩ : ∃ e, noisyStorm.engine (fun _ => .error .absent) = .ok e :=
    ⟨_, engine_eq_ok.mpr ⟨s, view, first, first, _, accepted, sized, taken, rfl, placed, rfl⟩⟩
  obtain ⟨⟨last, c⟩, done⟩ : ∃ final, noisyStorm.exposure (fun _ => .error .absent) = .ok final :=
    ⟨_, exposure_eq_ok.mpr ⟨e, empty, built, blank, rfl⟩⟩
  have started : noisyStorm.start = .seed 7 := rfl
  obtain ⟨share, same⟩ := share_replays started rfl done
  exact ⟨last, c, share, done, same⟩

end RenderRequest

end DriftField
