import Mathlib
import DriftField.Engine
import DriftField.Proofs.Expr.Grammar
import DriftField.Proofs.Swarm.Population
/-!
Runs of an engine, with where its base field comes from. A new field makes an engine forget its run, and the share code
of an engine gives back the field for as long as the strategy is the one that made it.
-/

namespace DriftField

/-- What last decided the base field of an engine. -/
inductive Origin where
  | drawn (strategy : Strategy) (seed : UInt64)
  | loaded (code : String)
  | cleared

namespace Engine

/-- The engines of a run, with the origin of the base field and the number of ticks. -/
inductive Reached : Origin → (ticks : Nat) → Engine → Prop
  | start {view : Viewport} {settings : Settings} {seed : UInt64} {e : Engine}
      (done : Engine.start view settings seed = .ok e) : Reached (.drawn settings.strategy seed) 0 e
  | newField {origin : Origin} {ticks : Nat} {seed : UInt64} {e next : Engine}
      (done : e.newField seed = .ok next) (reached : Reached origin ticks e) :
      Reached (.drawn e.settings.strategy seed) ticks next
  | loadSource {origin : Origin} {ticks : Nat} {code : String} {e next : Engine}
      (done : e.loadSource code = .ok next) (reached : Reached origin ticks e) :
      Reached (.loaded code) ticks next
  | clearField {origin : Origin} {ticks : Nat} {e : Engine} (reached : Reached origin ticks e) :
      Reached .cleared ticks e.clearField
  | tick {origin : Origin} {ticks : Nat} {e : Engine} (delta : Float) (reached : Reached origin ticks e) :
      Reached origin (ticks + 1) (e.tick delta)
  | burst {origin : Origin} {ticks : Nat} {e : Engine} (n : Nat) (reached : Reached origin ticks e) :
      Reached origin ticks (e.burst n)
  | setPointer {origin : Origin} {ticks : Nat} {e : Engine} (pointer : Option Vec)
      (reached : Reached origin ticks e) : Reached origin ticks (e.setPointer pointer)
  | withSettings {origin : Origin} {ticks : Nat} {e : Engine} (settings : Settings)
      (reached : Reached origin ticks e) : Reached origin ticks (e.withSettings settings)
  | setParameters {origin : Origin} {ticks : Nat} {params : Json} {e next : Engine}
      (done : e.setParameters params = .ok next) (reached : Reached origin ticks e) :
      Reached origin ticks next
  | resetParticles {origin : Origin} {ticks : Nat} {e : Engine} (reached : Reached origin ticks e) :
      Reached origin ticks e.resetParticles

variable {e next : Engine} {origin : Origin} {ticks : Nat} {seed : UInt64}

/-! What the operations that may fail do when they do not. -/

theorem start_eq_ok {view : Viewport} {settings : Settings} :
    start view settings seed = .ok e ↔
      ∃ field stream, generate settings.strategy seed = .ok (field, stream) ∧
        e =
          { view, settings, field
            swarm := (Swarm.start settings.swarm view stream).1
            stream := (Swarm.start settings.swarm view stream).2
            flow := .ofSeed settings.flow (noiseSeed seed)
            seed := some seed
            pointer := none
            frame := 0 } := by
  unfold start
  constructor
  · intro done
    obtain ⟨⟨field, stream⟩, drawn, same⟩ := exists_of_bind_eq_ok done
    exact ⟨field, stream, drawn, (Except.ok.inj same).symm⟩
  · rintro ⟨field, stream, drawn, rfl⟩
    rw [drawn]
    rfl

theorem generate_noise (seed : UInt64) : ∃ n stream, generate .noise seed = .ok (some (.noise n), stream) :=
  ⟨_, _, rfl⟩

theorem start_noise (settings : Settings) (noise : settings.strategy = .noise) (view : Viewport) (seed : UInt64) :
    ∃ e n, start view settings seed = .ok e ∧ e.settings = settings ∧ e.seed = some seed ∧
      e.field = some (.noise n) := by
  obtain ⟨n, stream, drawn⟩ := generate_noise seed
  rw [← noise] at drawn
  exact ⟨_, n, start_eq_ok.mpr ⟨_, stream, drawn, rfl⟩, rfl, rfl, rfl⟩

theorem newField_eq_ok :
    e.newField seed = .ok next ↔
      ∃ field stream, generate e.settings.strategy seed = .ok (field, stream) ∧
        next = resetParticles
          { e with
            field, stream
            seed := some seed
            flow := .ofSeed e.settings.flow (noiseSeed seed) } := by
  unfold newField
  constructor
  · intro done
    obtain ⟨⟨field, stream⟩, drawn, same⟩ := exists_of_bind_eq_ok done
    exact ⟨field, stream, drawn, (Except.ok.inj same).symm⟩
  · rintro ⟨field, stream, drawn, rfl⟩
    rw [drawn]
    rfl

theorem loadSource_eq_ok {code : String} (done : e.loadSource code = .ok next) :
    ∃ f, FormulaField.ofSource code = .ok (some f) ∧
      next = resetParticles { e with field := some (.function f), seed := none } := by
  unfold loadSource at done
  split at done
  · cases done
  · cases done
  · next f compiled => exact ⟨f, compiled, (Except.ok.inj done).symm⟩

theorem setParameters_eq_ok {params : Json} (done : e.setParameters params = .ok next) :
    ∃ settings, e.settings.override params = .ok settings ∧ next = e.withSettings settings := by
  unfold setParameters at done
  split at done
  · next settings overridden => exact ⟨settings, overridden, (Except.ok.inj done).symm⟩
  · cases done

/-! Moving the particles or the pointer leaves settings and seed as they are. -/

@[simp] theorem settings_tick (e : Engine) (delta : Float) : (e.tick delta).settings = e.settings := rfl

@[simp] theorem share?_tick (e : Engine) (delta : Float) : (e.tick delta).share? = e.share? := rfl

@[simp] theorem share?_burst (e : Engine) (n : Nat) : (e.burst n).share? = e.share? := rfl

@[simp] theorem share?_setPointer (e : Engine) (pointer : Option Vec) :
    (e.setPointer pointer).share? = e.share? := rfl

theorem share?_of_seed (seeded : e.seed = some seed) : e.share? = some (e.settings.share seed) := by
  unfold share?
  rw [seeded]
  rfl

structure Coherent (e : Engine) : Prop where
  settings : e.swarm.settings = e.settings.swarm
  view : e.swarm.view = e.view

theorem Reached.coherent (reached : Reached origin ticks e) : Coherent e := by
  induction reached with
  | start done =>
      obtain ⟨field, stream, -, rfl⟩ := start_eq_ok.mp done
      exact ⟨rfl, rfl⟩
  | newField done reached coherent =>
      obtain ⟨field, stream, -, rfl⟩ := newField_eq_ok.mp done
      exact ⟨coherent.settings, coherent.view⟩
  | loadSource done reached coherent =>
      obtain ⟨f, -, rfl⟩ := loadSource_eq_ok done
      exact ⟨coherent.settings, coherent.view⟩
  | setParameters done reached coherent =>
      obtain ⟨settings, -, rfl⟩ := setParameters_eq_ok done
      exact ⟨rfl, coherent.view⟩
  | withSettings settings reached coherent => exact ⟨rfl, coherent.view⟩
  | clearField reached coherent => exact ⟨coherent.settings, coherent.view⟩
  | tick delta reached coherent => exact ⟨coherent.settings, coherent.view⟩
  | burst n reached coherent => exact ⟨coherent.settings, coherent.view⟩
  | setPointer pointer reached coherent => exact ⟨coherent.settings, coherent.view⟩
  | resetParticles reached coherent => exact ⟨coherent.settings, coherent.view⟩

theorem reset_eq_start (coherent : Coherent e) (stream : Stream) :
    (e.swarm.reset stream).1.particles = (Swarm.start e.settings.swarm e.view stream).1.particles ∧
      (e.swarm.reset stream).2 = (Swarm.start e.settings.swarm e.view stream).2 := by
  rw [← coherent.settings, ← coherent.view]
  exact ⟨rfl, rfl⟩

/-- A new field leaves nothing of the run in what is drawn: field, seed, flow, stream and particles are those of an
engine that starts with the same settings and seed. Only pointer, frame and clock go on. -/
theorem Reached.newField_forgets_run (reached : Reached origin ticks e) (done : e.newField seed = .ok next) :
    ∃ fresh, Engine.start e.view e.settings seed = .ok fresh ∧
      next.field = fresh.field ∧ next.seed = fresh.seed ∧ next.flow = fresh.flow ∧
      next.stream = fresh.stream ∧ next.swarm.particles = fresh.swarm.particles ∧
      next.pointer = e.pointer ∧ next.frame = e.frame ∧ next.swarm.clock = e.swarm.clock := by
  obtain ⟨field, stream, drawn, rfl⟩ := newField_eq_ok.mp done
  obtain ⟨particles, rest⟩ := reset_eq_start reached.coherent stream
  exact ⟨_, start_eq_ok.mpr ⟨field, stream, drawn, rfl⟩, rfl, rfl, rfl, rest, particles, rfl, rfl, rfl⟩

theorem noise_newField_forgets_run :
    ∃ e next fresh, Reached (.drawn .noise 1) 1 e ∧ e.newField 9 = .ok next ∧
      Engine.start e.view e.settings 9 = .ok fresh ∧
      next.field = fresh.field ∧ next.seed = fresh.seed ∧ next.flow = fresh.flow ∧
      next.stream = fresh.stream ∧ next.swarm.particles = fresh.swarm.particles ∧
      next.pointer = e.pointer ∧ next.frame = e.frame ∧ next.swarm.clock = e.swarm.clock := by
  have view : Viewport := ⟨800.0, 600.0, by decide⟩
  obtain ⟨first, n, started, -⟩ :=
    start_noise { Settings.standard with strategy := .noise } rfl view 1
  obtain ⟨e, reached, strategy⟩ : ∃ e, Reached (.drawn .noise 1) 1 e ∧ e.settings.strategy = .noise :=
    ⟨_, (((Reached.start started).burst 5).tick 16.0).withSettings
      { Settings.standard with strategy := .noise, persistence := 0.5 }, rfl⟩
  obtain ⟨n', stream, drawn⟩ := generate_noise 9
  rw [← strategy] at drawn
  have done : e.newField 9 = .ok _ := newField_eq_ok.mpr ⟨_, _, drawn, rfl⟩
  obtain ⟨fresh, same⟩ := Reached.newField_forgets_run reached done
  exact ⟨e, _, fresh, reached, done, same⟩

/-! Where the base field comes from. -/

/-- The base field of an engine is what its origin says. -/
def ComesFrom (e : Engine) : Origin → Prop
  | .drawn strategy seed => e.seed = some seed ∧ ∃ stream, generate strategy seed = .ok (e.field, stream)
  | .loaded code =>
      e.seed = none ∧ ∃ f, FormulaField.ofSource code = .ok (some f) ∧ e.field = some (.function f)
  | .cleared => e.seed = none ∧ e.field = none

theorem ComesFrom.of_eq (came : e.ComesFrom origin) (seed : next.seed = e.seed) (field : next.field = e.field) :
    next.ComesFrom origin := by
  unfold ComesFrom at came ⊢
  rwa [seed, field]

theorem Reached.comesFrom (reached : Reached origin ticks e) : e.ComesFrom origin := by
  induction reached with
  | start done =>
      obtain ⟨field, stream, drawn, rfl⟩ := start_eq_ok.mp done
      exact ⟨rfl, stream, drawn⟩
  | newField done reached came =>
      obtain ⟨field, stream, drawn, rfl⟩ := newField_eq_ok.mp done
      exact ⟨rfl, stream, drawn⟩
  | loadSource done reached came =>
      obtain ⟨f, compiled, rfl⟩ := loadSource_eq_ok done
      exact ⟨rfl, f, compiled, rfl⟩
  | clearField reached came => exact ⟨rfl, rfl⟩
  | setParameters done reached came =>
      obtain ⟨settings, -, rfl⟩ := setParameters_eq_ok done
      exact came.of_eq rfl rfl
  | withSettings settings reached came => exact came.of_eq rfl rfl
  | tick delta reached came => exact came.of_eq rfl rfl
  | burst n reached came => exact came.of_eq rfl rfl
  | setPointer pointer reached came => exact came.of_eq rfl rfl
  | resetParticles reached came => exact came.of_eq rfl rfl

/-- A share code stands for the field of an engine together with the strategy that drew it: over any settings with that
strategy, and so over the engine's own until they change it, it gives the same base field. -/
theorem Reached.share_gives_field {share : Share} (reached : Reached origin ticks e)
    (shared : e.share? = some share) :
    ∃ strategy, origin = .drawn strategy share.seed ∧
      ∀ (view : Viewport) (settings : Settings), settings.strategy = strategy →
        ∃ rebuilt, ofShare view settings share = .ok rebuilt ∧ rebuilt.field = e.field := by
  have came := reached.comesFrom
  unfold share? at shared
  cases origin with
  | drawn strategy seed =>
      obtain ⟨known, stream, drawn⟩ := came
      rw [known] at shared
      cases shared
      refine ⟨strategy, rfl, fun view settings same => ?_⟩
      have drawn' : generate (settings.withShare (e.settings.share seed)).strategy seed = .ok (e.field, stream) := by
        rw [← drawn, ← same]
        rfl
      exact ⟨_, start_eq_ok.mpr ⟨_, _, drawn', rfl⟩, rfl⟩
  | loaded code =>
      rw [came.1] at shared
      cases shared
  | cleared =>
      rw [came.1] at shared
      cases shared

theorem noise_share_gives_field :
    ∃ e share rebuilt, Reached (.drawn .noise 1) 1 e ∧ e.share? = some share ∧
      ofShare e.view e.settings share = .ok rebuilt ∧ rebuilt.field = e.field := by
  have view : Viewport := ⟨800.0, 600.0, by decide⟩
  obtain ⟨first, n, started, settings, seeded, -⟩ :=
    start_noise { Settings.standard with strategy := .noise } rfl view 1
  have reached : Reached (.drawn .noise 1) 1 (first.tick 16.0) := (Reached.start started).tick 16.0
  have strategy : (first.tick 16.0).settings.strategy = .noise := by rw [settings_tick, settings]
  have shared := share?_of_seed (e := first.tick 16.0) seeded
  obtain ⟨strategy', same, gives⟩ := Reached.share_gives_field reached shared
  cases same
  obtain ⟨rebuilt, done, field⟩ := gives _ _ strategy
  exact ⟨_, _, rebuilt, reached, shared, done, field⟩

/-- Two base fields, of which either may be missing, that do not differ in kind, source or any sample. -/
def Alike : Option BaseField → Option BaseField → Prop
  | none, none => True
  | some f, some g => f.kind = g.kind ∧ f.source? = g.source? ∧ ∀ p, f.sample p = g.sample p
  | _, _ => False

/-- A strategy that is changed without a new field is not that of the field, and the share code does not tell. -/
theorem share_misses_changed_strategy :
    ∃ e share rebuilt, Reached (.drawn .noise 4) 0 e ∧ e.share? = some share ∧
      ofShare e.view e.settings share = .ok rebuilt ∧ ¬ Alike rebuilt.field e.field := by
  have view : Viewport := ⟨800.0, 600.0, by decide⟩
  obtain ⟨first, n, started, -, seeded, field⟩ :=
    start_noise { Settings.standard with strategy := .noise } rfl view 4
  have evaluated : ((generate .function 4).map (·.1.map BaseField.kind)).toOption = some (some .function) := by
    decide +kernel
  obtain ⟨f, stream', drawn', kind⟩ :
      ∃ f stream, generate .function 4 = .ok (some f, stream) ∧ f.kind = .function := by
    cases drawing : generate .function 4 with
    | error fault =>
        rw [drawing] at evaluated
        cases evaluated
    | ok drawing' =>
        obtain ⟨field, stream⟩ := drawing'
        rw [drawing] at evaluated
        obtain ⟨f, rfl, kind⟩ := Option.map_eq_some_iff.mp (Option.some.inj evaluated)
        exact ⟨f, stream, rfl, kind⟩
  have reached : Reached (.drawn .noise 4) 0 (first.withSettings .standard) :=
    (Reached.start started).withSettings .standard
  have shared := share?_of_seed (e := first.withSettings .standard) seeded
  obtain ⟨rebuilt, done, redrawn⟩ :
      ∃ rebuilt, ofShare first.view .standard (Settings.standard.share 4) = .ok rebuilt ∧ rebuilt.field = some f :=
    ⟨_, start_eq_ok.mpr ⟨_, _, drawn', rfl⟩, rfl⟩
  refine ⟨_, _, rebuilt, reached, shared, done, ?_⟩
  have field' : (first.withSettings .standard).field = some (.noise n) := field
  rw [field', redrawn]
  rintro ⟨same, -⟩
  rw [kind] at same
  cases same

end Engine

end DriftField
