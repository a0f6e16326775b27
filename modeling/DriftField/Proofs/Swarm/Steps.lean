import Mathlib
import DriftField.Proofs.Swarm.Vitality
import DriftField.Swarm.Segment
/-!
Trails against the ticks of a run. A trail is the newest part of the way that its particle has gone, step by step and tick
by tick, since it was last put somewhere; so no two samples that follow each other lie before and after a place to which
the particle did not go by a step.
-/

namespace DriftField

def SwarmSettings.StepsBounded (s : SwarmSettings) : Prop := s.greatestStep.isNaN = false

theorem singleton_ne {α : Type} {older newer : List α} {a b c : α} : [c] ≠ older ++ a :: b :: newer := by
  intro same
  have length := congrArg List.length same
  rw [List.length_append] at length
  change 1 = older.length + (newer.length + 2) at length
  omega

theorem Segment.exists_of_mem_ofSamples {colour : Colour} {n i : Nat} {samples : List Sample} {segment : Segment}
    (member : segment ∈ ofSamples colour n i samples) :
    ∃ older a b newer, samples = older ++ a :: b :: newer ∧ segment.start = a.position ∧ segment.stop = b.position := by
  induction samples generalizing i with
  | nil => cases member
  | cons a samples induction =>
      cases samples with
      | nil => cases member
      | cons b rest =>
          have later (member : segment ∈ ofSamples colour n (i + 1) (b :: rest)) :
              ∃ older a' b' newer, a :: b :: rest = older ++ a' :: b' :: newer ∧ segment.start = a'.position ∧
                segment.stop = b'.position := by
            obtain ⟨older, a', b', newer, samples, ends⟩ := induction member
            exact ⟨a :: older, a', b', newer, congrArg (a :: ·) samples, ends⟩
          unfold ofSamples at member
          split at member
          · rcases List.mem_cons.mp member with rfl | member
            · exact ⟨[], a, b, rest, rfl, rfl, rfl⟩
            · exact later member
          · exact later member

namespace Particle

variable {s : SwarmSettings} {p : Particle} {step : Vec}

/-- A step that is taken is not too long, unless there is no telling what too long is. -/
theorem short_of_admits (bounded : s.StepsBounded) (admitted : p.admits s step = true) :
    step.x.abs ≤ s.greatestStep ∧ step.y.abs ≤ s.greatestStep ∧ (p.position + step).isFinite = true := by
  obtain ⟨x, y, finite⟩ := admits_iff.mp admitted
  have short {from' along : Float} (arrives : Scalar.isFinite (from' + along) = true)
      (notLonger : ¬ along.abs > s.greatestStep) : along.abs ≤ s.greatestStep := by
    have number := (Scalar.isNaN_add.mp (Scalar.not_isNaN_of_isFinite arrives)).right
    exact (Scalar.lt_or_le bounded (Scalar.isNaN_abs number)).resolve_left notLonger
  obtain ⟨finiteX, finiteY⟩ := Bool.and_eq_true_iff.mp finite
  exact ⟨short finiteX x, short finiteY y, finite⟩

theorem extendTrail_suffix (finite : p.position.isFinite = true) (now : Float) :
    (p.extendTrail s now).trail.samples <:+ p.trail.samples ++ [⟨p.position, now⟩] := by
  unfold extendTrail
  rw [if_pos finite]
  exact (List.dropWhile_suffix _).trans (newest_suffix _ _)

end Particle

namespace Swarm

/-- A tick of a run. -/
structure Tick where
  before : Swarm
  delta : Float
  velocity : Vec → Vec

namespace Tick

variable (tick : Tick)

def clock : Particle.Clock := ⟨tick.before.clock + advance tick.delta, advance tick.delta / timeStep⟩

def outcome (p : Particle) (stream : Stream) : Particle.Outcome :=
  (p.tick tick.before.settings tick.before.view tick.clock tick.velocity stream).1

def stride (p : Particle) : Vec := p.stride tick.before.settings tick.clock (tick.velocity p.position)

def sampleOf (p : Particle) : Sample := ⟨p.position, tick.clock.now⟩

/-- The tick leads from one sample to another: a particle that was at the first is, when the tick ends, at the second, a
step from there that is not too long along any axis. It was neither put elsewhere nor given a new life. -/
def Leads (a b : Sample) : Prop :=
  ∃ p ∈ tick.before.particles, ∃ stream q, tick.outcome p stream = ⟨some q, false, false⟩ ∧
    p.position = a.position ∧ q.position = b.position ∧ b.born = tick.clock.now ∧
    b.position = a.position + tick.stride p ∧
    (tick.stride p).x.abs ≤ tick.before.settings.greatestStep ∧
    (tick.stride p).y.abs ≤ tick.before.settings.greatestStep

variable {tick} {p q : Particle} {stream : Stream}

theorem leads_of_outcome (bounded : tick.before.settings.StepsBounded) (member : p ∈ tick.before.particles)
    (outcome : tick.outcome p stream = ⟨some q, false, false⟩) (time : Float) :
    tick.Leads ⟨p.position, time⟩ (tick.sampleOf q) := by
  obtain ⟨moved, -, ⟨-, -, rfl⟩ | ⟨-, new, -⟩⟩ := Particle.outcome_tick outcome
  · rcases Particle.move_eq tick.before.settings tick.before.view (tick.stride p) p stream with
      ⟨admitted, went⟩ | ⟨-, went⟩
    · obtain ⟨x, y, -⟩ := Particle.short_of_admits bounded admitted
      have arrives := congrArg (·.1.position) went
      exact ⟨p, member, stream, _, outcome, rfl, rfl, rfl, arrives, x, y⟩
    · have elsewhere := congrArg Prod.snd went
      exact absurd (elsewhere.symm.trans moved) Bool.noConfusion
  · cases new

end Tick

/-- The swarms of a run with its ticks, latest first. -/
inductive Ticked (admitted : SwarmSettings → Prop) : List Tick → Swarm → Prop
  | start {s : SwarmSettings} (view : Viewport) (stream : Stream) (admits : admitted s) :
      Ticked admitted [] (start s view stream).1
  | tick {ticks : List Tick} {swarm : Swarm} (delta : Float) (velocity : Vec → Vec) (stream : Stream)
      (ticked : Ticked admitted ticks swarm) :
      Ticked admitted (⟨swarm, delta, velocity⟩ :: ticks) (swarm.tick delta velocity stream).1
  | burst {ticks : List Tick} {swarm : Swarm} (center : Vec) (n : Nat) (stream : Stream)
      (ticked : Ticked admitted ticks swarm) : Ticked admitted ticks (swarm.burst center n stream).1
  | withSettings {ticks : List Tick} {swarm : Swarm} {s : SwarmSettings} (admits : admitted s)
      (ticked : Ticked admitted ticks swarm) : Ticked admitted ticks (swarm.withSettings s)
  | reset {ticks : List Tick} {swarm : Swarm} (stream : Stream) (ticked : Ticked admitted ticks swarm) :
      Ticked admitted ticks (swarm.reset stream).1

/-- The places of a particle since it was last put somewhere, oldest first: by coming into being, or by a tick that moved
it elsewhere or began a new life of it. Every later tick adds one. -/
inductive Way : List Tick → Particle → List Sample → Prop
  | spawn {ticks : List Tick} (s : SwarmSettings) (view : Viewport) (stream : Stream) (now : Float) :
      Way ticks (Particle.spawn s view stream).1 [⟨(Particle.spawn s view stream).1.position, now⟩]
  | burst {ticks : List Tick} (s : SwarmSettings) (center : Vec) (stream : Stream) (now : Float) :
      Way ticks (Particle.burst s center stream).1 [⟨(Particle.burst s center stream).1.position, now⟩]
  | put {ticks : List Tick} {tick : Tick} {p q : Particle} {stream : Stream} {relocated respawned : Bool}
      (member : p ∈ tick.before.particles) (outcome : tick.outcome p stream = ⟨some q, relocated, respawned⟩)
      (elsewhere : (relocated || respawned) = true) : Way (tick :: ticks) q [tick.sampleOf q]
  | step {ticks : List Tick} {tick : Tick} {p q : Particle} {stream : Stream} {way : List Sample}
      (member : p ∈ tick.before.particles) (outcome : tick.outcome p stream = ⟨some q, false, false⟩)
      (gone : Way ticks p way) : Way (tick :: ticks) q (way ++ [tick.sampleOf q])
  | cut {ticks : List Tick} {p : Particle} {way : List Sample} (capacity : Nat) (gone : Way ticks p way) :
      Way ticks { p with trail := p.trail.withCapacity capacity } way

variable {admitted : SwarmSettings → Prop} {ticks : List Tick} {latest : Tick} {swarm : Swarm} {p q : Particle}
  {way : List Sample} {stream : Stream} {relocated : Bool}

theorem Ticked.arises (ticked : Ticked admitted ticks swarm) : Arises admitted swarm := by
  induction ticked with
  | start view stream admits => exact .start view stream admits
  | tick delta velocity stream ticked arises => exact arises.tick delta velocity stream
  | burst center n stream ticked arises => exact arises.burst center n stream
  | withSettings admits ticked arises => exact arises.withSettings admits
  | reset stream ticked arises => exact arises.reset stream

theorem Arises.exists_ticked (arises : Arises admitted swarm) : ∃ ticks, Ticked admitted ticks swarm := by
  induction arises with
  | start view stream admits => exact ⟨_, .start view stream admits⟩
  | tick delta velocity stream arises ticked => exact ticked.imp' _ fun _ ticked => ticked.tick delta velocity stream
  | burst center n stream arises ticked => exact ticked.imp fun _ ticked => ticked.burst center n stream
  | withSettings admits arises ticked => exact ticked.imp fun _ ticked => ticked.withSettings admits
  | reset stream arises ticked => exact ticked.imp fun _ ticked => ticked.reset stream

theorem Ticked.admits_before (ticked : Ticked admitted ticks swarm) : ∀ tick ∈ ticks, admitted tick.before.settings := by
  induction ticked with
  | start view stream admits => exact fun _ none => absurd none List.not_mem_nil
  | tick delta velocity stream ticked admits => exact List.forall_mem_cons.mpr ⟨ticked.arises.admits, admits⟩
  | burst center n stream ticked admits => exact admits
  | withSettings _ ticked admits => exact admits
  | reset stream ticked admits => exact admits

theorem Way.exists_last (gone : Way ticks p way) : ∃ older time, way = older ++ [⟨p.position, time⟩] := by
  induction gone with
  | spawn s view stream now => exact ⟨[], now, rfl⟩
  | burst s center stream now => exact ⟨[], now, rfl⟩
  | put member outcome elsewhere => exact ⟨[], _, rfl⟩
  | step member outcome gone last => exact ⟨_, _, rfl⟩
  | cut capacity gone last => exact last

/-- Each step of a way was made by the tick that lies as far back in the run as the step lies on the way. -/
theorem Way.leads (gone : Way ticks p way) (bounded : ∀ tick ∈ ticks, tick.before.settings.StepsBounded)
    {older newer : List Sample} {a b : Sample} (parts : way = older ++ a :: b :: newer) :
    ∃ tick, ticks[newer.length]? = some tick ∧ tick.Leads a b := by
  induction gone generalizing newer with
  | spawn s view stream now => exact absurd parts singleton_ne
  | burst s center stream now => exact absurd parts singleton_ne
  | put member outcome elsewhere => exact absurd parts singleton_ne
  | @step ticks tick p q stream way member outcome gone leads =>
      obtain ⟨first, earlier⟩ := List.forall_mem_cons.mp bounded
      -- The step is the one of the latest tick, or one of the way as it was before.
      rcases List.eq_nil_or_concat' newer with rfl | ⟨newer, latest, rfl⟩
      · have ends : way ++ [tick.sampleOf q] = (older ++ [a]) ++ [b] := by
          rw [parts, List.append_assoc]
          rfl
        obtain ⟨same, newest⟩ := List.append_inj' ends rfl
        obtain ⟨older', time, last⟩ := gone.exists_last
        obtain ⟨-, here⟩ := List.append_inj' (last.symm.trans same) rfl
        refine ⟨tick, rfl, ?_⟩
        rw [← List.singleton_inj.mp here, ← List.singleton_inj.mp newest]
        exact Tick.leads_of_outcome first member outcome time
      · have ends : way ++ [tick.sampleOf q] = (older ++ a :: b :: newer) ++ [latest] := by
          rw [parts, List.append_assoc]
          rfl
        obtain ⟨same, -⟩ := List.append_inj' ends rfl
        obtain ⟨tick', there, leads⟩ := leads earlier same
        refine ⟨tick', ?_, leads⟩
        rw [List.length_append]
        exact there
  | cut capacity gone leads => exact leads bounded parts

/-- What every operation preserves of a particle: its trail is the newest part of its way, and finite. -/
structure OnWay (ticks : List Tick) (p : Particle) : Prop where
  way : ∃ way, Way ticks p way ∧ p.trail.samples <:+ way
  finite : ∀ sample ∈ p.trail.samples, sample.position.isFinite = true

theorem OnWay.of_untrailed (gone : Way ticks p way) (untrailed : p.trail.samples = []) : OnWay ticks p := by
  constructor
  · refine ⟨way, gone, ?_⟩
    rw [untrailed]
    exact List.nil_suffix
  · rw [untrailed]
    exact fun _ none => absurd none List.not_mem_nil

/-- A tick puts the place to which a particle moves at the end of its trail. -/
theorem Tick.trail_suffix (outcome : latest.outcome p stream = ⟨some q, relocated, false⟩) :
    q.position.isFinite = true ∧
      (relocated = false ∧ q.trail.samples <:+ p.trail.samples ++ [latest.sampleOf q] ∨
        relocated = true ∧ q.trail.samples <:+ [latest.sampleOf q]) := by
  obtain ⟨moved, -, ⟨-, -, rfl⟩ | ⟨-, new, -⟩⟩ := Particle.outcome_tick outcome
  · have arrives := Particle.isFinite_position_move latest.before.settings latest.before.view (latest.stride p) p stream
    have extended := Particle.extendTrail_suffix (s := latest.before.settings) arrives latest.clock.now
    refine ⟨arrives, ?_⟩
    rcases Particle.move_eq latest.before.settings latest.before.view (latest.stride p) p stream with
      ⟨-, went⟩ | ⟨-, went⟩
    · have stays := congrArg Prod.snd went
      have kept := congrArg (·.1.trail) went
      left
      refine ⟨moved.symm.trans stays, ?_⟩
      rw [kept] at extended
      exact extended
    · have elsewhere := congrArg Prod.snd went
      have cleared := congrArg (·.1.trail) went
      right
      refine ⟨moved.symm.trans elsewhere, ?_⟩
      rw [cleared] at extended
      exact extended
  · cases new

theorem OnWay.tick (onWay : OnWay ticks p) (member : p ∈ latest.before.particles)
    (left : (latest.outcome p stream).particle = some q) : OnWay (latest :: ticks) q := by
  obtain ⟨⟨way, gone, trail⟩, finite⟩ := onWay
  cases outcome : latest.outcome p stream with
  | mk particle relocated respawned =>
      rw [outcome] at left
      cases left
      cases respawned with
      | true =>
          obtain ⟨-, -, ⟨-, same, -⟩ | ⟨-, -, stream', rfl⟩⟩ := Particle.outcome_tick outcome
          · cases same
          · exact .of_untrailed (.put member outcome (Bool.or_true _)) rfl
      | false =>
          obtain ⟨arrives, ⟨rfl, extended⟩ | ⟨rfl, extended⟩⟩ := Tick.trail_suffix outcome
          · obtain ⟨before, rfl⟩ := trail
            refine ⟨⟨_, .step member outcome gone, ?_⟩, fun sample among => ?_⟩
            · rw [List.append_assoc]
              exact extended.trans (List.suffix_append _ _)
            · rcases List.mem_append.mp (extended.subset among) with old | new
              · exact finite sample old
              · rw [List.mem_singleton.mp new]
                exact arrives
          · refine ⟨⟨_, .put member outcome rfl, extended⟩, fun sample among => ?_⟩
            rw [List.mem_singleton.mp (extended.subset among)]
            exact arrives

theorem Ticked.onWay (ticked : Ticked admitted ticks swarm) : ∀ p ∈ swarm.particles, OnWay ticks p := by
  induction ticked with
  | start view stream admits =>
      intro p member
      obtain ⟨stream', rfl⟩ := mem_reset member
      exact .of_untrailed (.spawn _ view stream' 0.0) rfl
  | @tick ticks swarm delta velocity stream ticked onWay =>
      intro p member
      rcases mem_tick member with ⟨old, member', stream', left⟩ | ⟨stream', rfl⟩
      · exact (onWay old member').tick member' left
      · exact .of_untrailed (.spawn _ _ stream' (swarm.clock + advance delta)) rfl
  | @burst ticks swarm center n stream ticked onWay =>
      intro p member
      rcases mem_burst member with old | ⟨stream', rfl⟩
      · exact onWay p old
      · exact .of_untrailed (.burst _ center stream' swarm.clock) rfl
  | @withSettings ticks swarm s admits ticked onWay =>
      intro p member
      obtain ⟨old, member', rfl⟩ := List.mem_map.mp member
      obtain ⟨⟨way, gone, trail⟩, finite⟩ := onWay old member'
      have fewer := newest_suffix s.trailLength old.trail.samples
      exact ⟨⟨way, gone.cut s.trailLength, fewer.trans trail⟩, fun sample among => finite sample (fewer.subset among)⟩
  | @reset ticks swarm stream ticked onWay =>
      intro p member
      obtain ⟨stream', rfl⟩ := mem_reset member
      exact .of_untrailed (.spawn _ _ stream' swarm.clock) rfl

theorem OnWay.position_newest (onWay : OnWay ticks p) {older : List Sample} {newest : Sample}
    (trail : p.trail.samples = older ++ [newest]) : newest.position = p.position := by
  obtain ⟨⟨way, gone, before, ends⟩, -⟩ := onWay
  obtain ⟨older', time, last⟩ := gone.exists_last
  rw [trail, ← List.append_assoc] at ends
  obtain ⟨-, here⟩ := List.append_inj' (ends.trans last) rfl
  rw [List.singleton_inj.mp here]

theorem OnWay.leads (onWay : OnWay ticks p) (bounded : ∀ tick ∈ ticks, tick.before.settings.StepsBounded)
    {older newer : List Sample} {a b : Sample} (trail : p.trail.samples = older ++ a :: b :: newer) :
    ∃ tick, ticks[newer.length]? = some tick ∧ tick.Leads a b := by
  obtain ⟨⟨way, gone, before, ends⟩, -⟩ := onWay
  rw [trail, ← List.append_assoc] at ends
  exact gone.leads bounded ends.symm

/-- Wherever a run has led under bounds on steps that are numbers, each trail is the newest part of the way of its
particle, it ends where the particle is, each of its samples but the first lies one step of the tick that took it from
the one before, and all are finite. What is drawn joins samples that follow each other in a trail. -/
theorem Arises.trails_unbroken (arises : Arises SwarmSettings.StepsBounded swarm) :
    (∃ ticks, Ticked SwarmSettings.StepsBounded ticks swarm) ∧
    ∀ ticks, Ticked SwarmSettings.StepsBounded ticks swarm →
      (∀ p ∈ swarm.particles,
        (∃ way, Way ticks p way ∧ p.trail.samples <:+ way) ∧
        (∀ older newest, p.trail.samples = older ++ [newest] → newest.position = p.position) ∧
        (∀ older a b newer, p.trail.samples = older ++ a :: b :: newer →
          ∃ tick, ticks[newer.length]? = some tick ∧ tick.Leads a b) ∧
        ∀ sample ∈ p.trail.samples, sample.position.isFinite = true) ∧
      ∀ segment ∈ swarm.segments, ∃ p ∈ swarm.particles, ∃ older a b newer,
        p.trail.samples = older ++ a :: b :: newer ∧ segment.start = a.position ∧ segment.stop = b.position := by
  refine ⟨arises.exists_ticked, fun ticks ticked => ⟨fun p member => ?_, fun segment drawn => ?_⟩⟩
  · have onWay := ticked.onWay p member
    exact ⟨onWay.way, fun _ _ trail => onWay.position_newest trail,
      fun _ _ _ _ trail => onWay.leads ticked.admits_before trail, onWay.finite⟩
  · obtain ⟨p, member, drawn⟩ := List.mem_flatMap.mp drawn
    exact ⟨p, member, Segment.exists_of_mem_ofSamples drawn⟩

theorem standard_trails_unbroken :
    ∃ ticks swarm, Arises SwarmSettings.StepsBounded swarm ∧ Ticked SwarmSettings.StepsBounded ticks swarm ∧
      ticks.length = 2 ∧ 0 < swarm.size ∧
      (∀ p ∈ swarm.particles, ∀ older newest, p.trail.samples = older ++ [newest] → newest.position = p.position) ∧
      ∀ p ∈ swarm.particles, ∀ older a b newer, p.trail.samples = older ++ a :: b :: newer →
        ∃ tick, ticks[newer.length]? = some tick ∧ tick.Leads a b := by
  have bounded : SwarmSettings.StepsBounded .standard := by
    unfold SwarmSettings.StepsBounded
    decide
  have view : Viewport := ⟨800.0, 600.0, by decide⟩
  obtain ⟨first, started⟩ : ∃ first, first = (start .standard view (.ofSeed 7)).1 := ⟨_, rfl⟩
  obtain ⟨second, ticked⟩ : ∃ second, second = (first.tick 16.0 (fun _ => ⟨1.0, 1.0⟩) (.ofSeed 8)).1 := ⟨_, rfl⟩
  obtain ⟨swarm, ticked'⟩ : ∃ swarm, swarm = (second.tick 16.0 (fun _ => ⟨1.0, 0.0⟩) (.ofSeed 9)).1 := ⟨_, rfl⟩
  have run : Ticked SwarmSettings.StepsBounded [⟨second, 16.0, fun _ => ⟨1.0, 0.0⟩⟩, ⟨first, 16.0, fun _ => ⟨1.0, 1.0⟩⟩]
      swarm := by
    rw [ticked', ticked, started]
    exact ((Ticked.start view _ bounded).tick _ _ _).tick _ _ _
  have each := ((Arises.trails_unbroken run.arises).2 _ run).1
  refine ⟨_, swarm, run.arises, run, rfl, ?_, fun p member => (each p member).2.1, fun p member => (each p member).2.2.1⟩
  obtain ⟨kept, -, size⟩ := exists_size_tick second 16.0 (fun _ => ⟨1.0, 0.0⟩) (.ofSeed 9)
  have some : 0 < SwarmSettings.standard.count := by decide
  rw [ticked', size, ticked, settings_tick, started, settings_start]
  exact some.trans_le (Nat.le_max_left _ _)

end Swarm

end DriftField
