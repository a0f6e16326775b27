import Mathlib
import DriftField.Proofs.Engine.Operation
import DriftField.Proofs.Expr.Source
/-!
What the parts of an engine say of each other over whole runs: the copies of the settings and of the visible area agree,
the pointer is a place, and source and share code tell the truth about the base field.
-/

namespace DriftField.Engine

namespace Operation

/-- What decides the base field once the operation has succeeded. -/
def origin (e : Engine) (before : Origin) : Operation → Origin
  | newField seed => .drawn e.settings.strategy seed
  | loadSource code => .loaded code
  | clearField => .cleared
  | tick _ | burst _ | setPointer _ | withSettings _ | setParameters _ | resetParticles => before

def ticks : Operation → Nat
  | tick _ => 1
  | _ => 0

end Operation

/-- The engines of a run of operations, which may fail, with the origin of the base field and the number of ticks. -/
inductive Performed : Origin → (ticks : Nat) → Engine → Prop
  | start {view : Viewport} {settings : Settings} {seed : UInt64} {e : Engine}
      (done : Engine.start view settings seed = .ok e) : Performed (.drawn settings.strategy seed) 0 e
  | success {origin : Origin} {ticks : Nat} {e next : Engine} {op : Operation}
      (done : op.perform e = (.ok (), next)) (performed : Performed origin ticks e) :
      Performed (op.origin e origin) (ticks + op.ticks) next
  | failure {origin : Origin} {ticks : Nat} {e next : Engine} {op : Operation} {fault : Fault}
      (failed : op.perform e = (.error fault, next)) (performed : Performed origin ticks e) :
      Performed origin ticks next

variable {e next : Engine} {origin : Origin} {ticks : Nat} {op : Operation}

theorem Reached.operation (reached : Reached origin ticks e) (done : op.result e = .ok next) :
    Reached (op.origin e origin) (ticks + op.ticks) next := by
  cases op with
  | newField seed => exact .newField done reached
  | loadSource code => exact .loadSource done reached
  | setParameters params => exact .setParameters done reached
  | clearField =>
      cases done
      exact reached.clearField
  | tick delta =>
      cases done
      exact reached.tick delta
  | burst n =>
      cases done
      exact reached.burst n
  | setPointer pointer =>
      cases done
      exact reached.setPointer pointer
  | withSettings s =>
      cases done
      exact reached.withSettings s
  | resetParticles =>
      cases done
      exact reached.resetParticles

theorem Performed.reached (performed : Performed origin ticks e) : Reached origin ticks e := by
  induction performed with
  | start done => exact .start done
  | success done performed reached => exact reached.operation (Operation.perform_eq_ok.mp done)
  | failure failed performed reached =>
      obtain ⟨-, same⟩ := Operation.perform_eq_error.mp failed
      rw [same]
      exact reached

structure InStep (ticks : Nat) (e : Engine) : Prop where
  flow : e.flow.settings = e.settings.flow
  pointer : ∀ p, e.pointer = some p → p.isFinite = true
  frame : e.frame = ticks

theorem Reached.inStep (reached : Reached origin ticks e) : InStep ticks e := by
  induction reached with
  | start done =>
      obtain ⟨field, stream, -, rfl⟩ := start_eq_ok.mp done
      exact ⟨rfl, nofun, rfl⟩
  | newField done reached inStep =>
      obtain ⟨field, stream, -, rfl⟩ := newField_eq_ok.mp done
      exact ⟨rfl, inStep.pointer, inStep.frame⟩
  | loadSource done reached inStep =>
      obtain ⟨f, -, rfl⟩ := loadSource_eq_ok done
      exact ⟨inStep.flow, inStep.pointer, inStep.frame⟩
  | setParameters done reached inStep =>
      obtain ⟨settings, -, rfl⟩ := setParameters_eq_ok done
      exact ⟨rfl, inStep.pointer, inStep.frame⟩
  | withSettings settings reached inStep => exact ⟨rfl, inStep.pointer, inStep.frame⟩
  | clearField reached inStep => exact ⟨inStep.flow, inStep.pointer, inStep.frame⟩
  | tick delta reached inStep => exact ⟨inStep.flow, inStep.pointer, congrArg Nat.succ inStep.frame⟩
  | burst n reached inStep => exact ⟨inStep.flow, inStep.pointer, inStep.frame⟩
  | setPointer pointer reached inStep =>
      refine ⟨inStep.flow, fun p kept => ?_, inStep.frame⟩
      exact (Option.filter_eq_some_iff.mp kept).2
  | resetParticles reached inStep => exact ⟨inStep.flow, inStep.pointer, inStep.frame⟩

theorem source?_gives_field {code : String} (known : e.source? = some code) :
    ∃ f, FormulaField.ofSource code = .ok (some f) ∧ e.field = some (.function f) := by
  obtain ⟨field, present, source⟩ := Option.bind_eq_some_iff.mp known
  cases field with
  | function f =>
      cases source
      exact ⟨f, f.ofSource_source, present⟩
  | noise n => cases source
  | noisyFunction n f => cases source

/-- There is a share code exactly if the base field was drawn, and then it is that of the seed from which it was. -/
theorem ComesFrom.share?_eq_some_iff (came : e.ComesFrom origin) {share : Share} :
    e.share? = some share ↔ ∃ strategy seed, origin = .drawn strategy seed ∧ share = e.settings.share seed := by
  unfold share?
  cases origin with
  | drawn strategy seed =>
      rw [came.1]
      constructor
      · intro shared
        exact ⟨strategy, seed, rfl, (Option.some.inj shared).symm⟩
      · rintro ⟨_, _, ⟨⟩, rfl⟩
        rfl
  | loaded code =>
      rw [came.1]
      exact ⟨nofun, nofun⟩
  | cleared =>
      rw [came.1]
      exact ⟨nofun, nofun⟩

/-- Whatever was done to an engine, its flow and its swarm have its settings, its swarm has its visible area, its pointer
is a place, its frames are its ticks, its source gives its base field, and it has a share code exactly if its base field
was last drawn from a seed: the code of that seed with its settings. -/
theorem Performed.coherent_throughout (performed : Performed origin ticks e) :
    e.flow.settings = e.settings.flow ∧
    e.swarm.settings = e.settings.swarm ∧
    e.swarm.view = e.view ∧
    (∀ p, e.pointer = some p → p.isFinite = true) ∧
    e.frame = ticks ∧
    (∀ code, e.source? = some code →
      ∃ f, FormulaField.ofSource code = .ok (some f) ∧ e.field = some (.function f)) ∧
    ∀ share, e.share? = some share ↔ ∃ strategy seed, origin = .drawn strategy seed ∧
      share = ⟨seed, e.settings.swarm.count, e.settings.flow.intensity, e.settings.flow.zoom, e.settings.persistence⟩ := by
  have reached := performed.reached
  have coherent := reached.coherent
  have inStep := reached.inStep
  exact ⟨inStep.flow, coherent.settings, coherent.view, inStep.pointer, inStep.frame,
    fun _ known => source?_gives_field known, fun _ => reached.comesFrom.share?_eq_some_iff⟩

theorem noise_coherent_throughout :
    ∃ e, Performed (.drawn .noise 9) 1 e ∧ e.frame = 1 ∧ e.flow.settings = e.settings.flow ∧
      e.swarm.settings = e.settings.swarm ∧ ∃ share, e.share? = some share ∧ share.seed = 9 := by
  have view : Viewport := ⟨800.0, 600.0, by decide⟩
  obtain ⟨first, n, started, settings, -⟩ :=
    start_noise { Settings.standard with strategy := .noise } rfl view 3
  have ticks : (Operation.tick 16.0).perform first = (.ok (), first.tick 16.0) := Operation.perform_eq_ok.mpr rfl
  obtain ⟨n', stream, drawn⟩ := generate_noise 9
  have strategy : (first.tick 16.0).settings.strategy = .noise := by rw [settings_tick, settings]
  have drawn' : generate (first.tick 16.0).settings.strategy 9 = .ok (some (.noise n'), stream) := by rw [strategy, drawn]
  have done := newField_eq_ok.mpr ⟨_, stream, drawn', rfl⟩
  have renews : (Operation.newField 9).perform (first.tick 16.0) = (.ok (), _) := Operation.perform_eq_ok.mpr done
  have renewed := ((Performed.start started).success ticks).success renews
  rw [Operation.origin, strategy] at renewed
  obtain ⟨flow, swarm, -, -, frame, -, shared⟩ := Performed.coherent_throughout renewed
  exact ⟨_, renewed, frame, flow, swarm, _, (shared _).mpr ⟨.noise, 9, rfl, rfl⟩, rfl⟩

end DriftField.Engine
