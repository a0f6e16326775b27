import Mathlib
import DriftField.Engine.Operation
import DriftField.Proofs.Engine.Run
/-!
Operations that fail. What an operation does in place, assignment by assignment, is what it makes of the engine as a
whole, so one that fails leaves the engine as it was. All but ticks and bursts come to an end, and these do just where
the populations that the swarm computes are machine words.
-/

namespace DriftField.Engine

theorem tick?_eq (e : Engine) (delta : Float) :
    e.tick? delta = if e.swarm.settings.CeilingFits then some (e.tick delta) else none := by
  unfold tick? Swarm.tick?
  split <;> rfl

theorem burst?_eq (e : Engine) (n : Nat) :
    e.burst? n = if e.swarm.BurstFits n then some (e.burst n) else none := by
  unfold burst? Swarm.burst?
  split <;> rfl

namespace Change

variable {α β ε : Type}

theorem run_get (next : Engine → Change α) (e : Engine) : (get >>= next).run e = (next e).run e := rfl

theorem run_demand (fault : ε → Fault) (demanded : Except ε α) (next : α → Change β) (e : Engine) :
    (demand fault demanded >>= next).run e =
      match demanded with
      | .ok a => (next a).run e
      | .error error => (.error (fault error), e) := by
  cases demanded with
  | ok a => rfl
  | error error => rfl

end Change

namespace Operation

def result (e : Engine) : Operation → Except Fault Engine
  | newField seed => e.newField seed
  | loadSource code => e.loadSource code
  | clearField => .ok e.clearField
  | tick delta => .ok (e.tick delta)
  | burst n => .ok (e.burst n)
  | setPointer pointer => .ok (e.setPointer pointer)
  | withSettings s => .ok (e.withSettings s)
  | setParameters params => e.setParameters params
  | resetParticles => .ok e.resetParticles

def settled (e : Engine) : Except Fault Engine → Except Fault Unit × Engine
  | .ok next => (.ok (), next)
  | .error fault => (.error fault, e)

variable {e next : Engine} {op : Operation} {fault : Fault}

theorem perform_newField (e : Engine) (seed : UInt64) :
    (newField seed).perform e = settled e (e.newField seed) := by
  change (Change.newField seed).run e = _
  unfold Change.newField Engine.newField generate
  rw [Change.run_get, Change.run_demand]
  generalize (BaseField.generate e.settings.strategy).run (Stream.ofSeed seed) = drawn
  obtain ⟨field | failure, rest⟩ := drawn
  · rfl
  · rfl

theorem perform_loadSource (e : Engine) (code : String) :
    (loadSource code).perform e = settled e (e.loadSource code) := by
  change (Change.loadSource code).run e = _
  unfold Change.loadSource Engine.loadSource FormulaField.ofSource
  rw [Change.run_demand]
  cases Components.parse code with
  | error error => rfl
  | ok components =>
      dsimp only [Functor.map, Except.map]
      cases FormulaField.of? components with
      | none => rfl
      | some f => rfl

theorem perform_setParameters (e : Engine) (params : Json) :
    (setParameters params).perform e = settled e (e.setParameters params) := by
  change (Change.setParameters params).run e = _
  unfold Change.setParameters Engine.setParameters
  rw [Change.run_get, Change.run_demand]
  cases e.settings.override params with
  | error error => rfl
  | ok s => rfl

theorem perform_eq (op : Operation) (e : Engine) : op.perform e = settled e (op.result e) := by
  cases op with
  | newField seed => exact perform_newField e seed
  | loadSource code => exact perform_loadSource e code
  | setParameters params => exact perform_setParameters e params
  | clearField => rfl
  | tick delta => rfl
  | burst n => rfl
  | setPointer pointer => rfl
  | withSettings s => rfl
  | resetParticles => rfl

theorem perform_eq_ok : op.perform e = (.ok (), next) ↔ op.result e = .ok next := by
  rw [perform_eq]
  cases op.result e with
  | ok next' =>
      refine ⟨fun same => ?_, fun same => ?_⟩
      · cases same
        rfl
      · cases same
        rfl
  | error fault => exact ⟨nofun, nofun⟩

theorem perform_eq_error : op.perform e = (.error fault, next) ↔ op.result e = .error fault ∧ next = e := by
  rw [perform_eq]
  cases op.result e with
  | ok next' => exact ⟨nofun, nofun⟩
  | error fault' =>
      refine ⟨fun same => ?_, fun ⟨same, here⟩ => ?_⟩
      · cases same
        exact ⟨rfl, rfl⟩
      · cases same
        rw [here]
        rfl

theorem loadSource_eq_error {code : String} :
    e.loadSource code = .error fault ↔
      (∃ error, Components.parse code = .error error ∧ fault = .source error) ∨
        ∃ components, Components.parse code = .ok components ∧ FormulaField.of? components = none ∧
          fault = .tooLarge := by
  unfold Engine.loadSource FormulaField.ofSource
  cases parsed : Components.parse code with
  | error error =>
      constructor
      · intro failed
        exact .inl ⟨error, rfl, (Except.error.inj failed).symm⟩
      · rintro (⟨_, ⟨⟩, rfl⟩ | ⟨_, ⟨⟩, -⟩)
        rfl
  | ok components =>
      dsimp only [Functor.map, Except.map]
      cases sound : FormulaField.of? components with
      | none =>
          constructor
          · intro failed
            exact .inr ⟨components, rfl, sound, (Except.error.inj failed).symm⟩
          · rintro (⟨_, ⟨⟩, -⟩ | ⟨_, ⟨⟩, -, rfl⟩)
            rfl
      | some f =>
          constructor
          · intro failed
            cases failed
          · rintro (⟨_, ⟨⟩, -⟩ | ⟨_, ⟨⟩, unsound, -⟩)
            rw [sound] at unsound
            cases unsound

theorem setParameters_eq_error {params : Json} :
    e.setParameters params = .error fault ↔
      ∃ error, e.settings.override params = .error error ∧ fault = .parameter error := by
  unfold Engine.setParameters
  cases e.settings.override params with
  | error error =>
      constructor
      · intro failed
        exact ⟨error, rfl, (Except.error.inj failed).symm⟩
      · rintro ⟨_, ⟨⟩, rfl⟩
        rfl
  | ok s => exact ⟨nofun, nofun⟩

/-- The populations that an operation computes are machine words. -/
def Fits (e : Engine) : Operation → Prop
  | tick _ => e.swarm.settings.CeilingFits
  | burst n => e.swarm.BurstFits n
  | _ => True

theorem perform?_eq_some_iff {result : Except Fault Unit × Engine} :
    op.perform? e = some result ↔ op.Fits e ∧ op.perform e = result := by
  have whole {op : Operation} : some (op.perform e) = some result ↔ True ∧ op.perform e = result :=
    Option.some_inj.trans (and_iff_right trivial).symm
  cases op
  case tick delta =>
    rw [perform?, tick?_eq, perform_eq, apply_ite (Option.map _)]
    exact Option.ite_none_right_eq_some.trans (and_congr_right' Option.some_inj)
  case burst n =>
    rw [perform?, burst?_eq, perform_eq, apply_ite (Option.map _)]
    exact Option.ite_none_right_eq_some.trans (and_congr_right' Option.some_inj)
  all_goals exact whole

theorem fails_iff : (∃ next, op.perform e = (.error fault, next)) ↔ op.result e = .error fault := by
  constructor
  · rintro ⟨next, failed⟩
    exact (perform_eq_error.mp failed).1
  · intro failed
    exact ⟨e, perform_eq_error.mpr ⟨failed, rfl⟩⟩

/-- An operation that fails leaves the engine, in all its parts, as it was. A source is refused exactly if it does not
read, or if no field can be made of what it says, and parameters exactly if they do not override the settings. -/
theorem failure_changes_nothing (e : Engine) :
    (∀ op fault next, perform op e = (.error fault, next) → next = e) ∧
    (∀ code fault, (∃ next, (loadSource code).perform e = (.error fault, next)) ↔
      (∃ error, Components.parse code = .error error ∧ fault = .source error) ∨
        ∃ components, Components.parse code = .ok components ∧ FormulaField.of? components = none ∧
          fault = .tooLarge) ∧
    ∀ params fault, (∃ next, (setParameters params).perform e = (.error fault, next)) ↔
      ∃ error, e.settings.override params = .error error ∧ fault = .parameter error :=
  ⟨fun _ _ _ failed => (perform_eq_error.mp failed).2, fun _ _ => fails_iff.trans loadSource_eq_error,
    fun _ _ => fails_iff.trans setParameters_eq_error⟩

theorem noise_failure_changes_nothing :
    ∃ e, Reached (.drawn .noise 3) 1 e ∧
      (∃ fault, (loadSource "dx").perform e = (.error fault, e)) ∧
      ∃ fault, (setParameters (.object [("strategy", .text "chaos")])).perform e = (.error fault, e) := by
  have view : Viewport := ⟨800.0, 600.0, by decide⟩
  have refused : (Components.parse "dx").toOption.isNone = true := by decide +kernel
  have unknown : ∃ error,
      Settings.override { Settings.standard with strategy := .noise } (.object [("strategy", .text "chaos")]) =
        .error error := ⟨_, rfl⟩
  obtain ⟨first, n, started, settings, -⟩ :=
    start_noise { Settings.standard with strategy := .noise } rfl view 3
  have settings' : (first.tick 16.0).settings = { Settings.standard with strategy := .noise } := by
    rw [settings_tick, settings]
  obtain ⟨keeps, source, parameters⟩ := failure_changes_nothing (first.tick 16.0)
  refine ⟨_, (Reached.start started).tick 16.0, ?_, ?_⟩
  · obtain ⟨error, parsed⟩ : ∃ error, Components.parse "dx" = .error error := by
      cases parsed : Components.parse "dx" with
      | error error => exact ⟨error, rfl⟩
      | ok components =>
          rw [parsed] at refused
          cases refused
    obtain ⟨next, failed⟩ := (source "dx" _).mpr (.inl ⟨error, parsed, rfl⟩)
    rw [keeps _ _ _ failed] at failed
    exact ⟨_, failed⟩
  · obtain ⟨error, overridden⟩ := unknown
    rw [← settings'] at overridden
    obtain ⟨next, failed⟩ := (parameters _ _).mpr ⟨error, overridden, rfl⟩
    rw [keeps _ _ _ failed] at failed
    exact ⟨_, failed⟩

end Operation

end DriftField.Engine
