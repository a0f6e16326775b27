import DriftField.Arrow
import DriftField.BaseField
import DriftField.Fault
import DriftField.Flow
import DriftField.Settings.Parameter
import DriftField.Swarm.Segment
/-!
Engines: a flow over a base field, the swarm that it carries, and the stream that feeds the swarm. The
seed of the base field determines everything random about an engine.
-/

namespace DriftField

structure Engine where
  view : Viewport
  settings : Settings
  flow : Flow
  field : Option BaseField
  /-- The seed of the base field, if it comes from one. -/
  seed : Option UInt64
  swarm : Swarm
  stream : Stream
  pointer : Option Vec
  /-- Ticks since the start. -/
  frame : Nat

namespace Engine

def particleSalt : UInt64 := 0x70617274

def noiseSeed (seed : UInt64) : UInt32 := (seed ^^^ (seed >>> 32)).toUInt32

/-- The base field of a seed, and the stream that remains for the particles. -/
def generate (strategy : Strategy) (seed : UInt64) : Except Fault (Option BaseField × Stream) :=
  match (BaseField.generate strategy).run (Stream.ofSeed seed) with
  | (.ok field, stream) => .ok (field, ((Draw.fork particleSalt).run stream).1)
  | (.error failure, _) => .error (.synthesis failure)

def start (view : Viewport) (settings : Settings) (seed : UInt64) : Except Fault Engine := do
  let (field, stream) ← generate settings.strategy seed
  let (swarm, stream) := (Swarm.start settings.swarm view).run stream
  return {
    view, settings, field, swarm, stream
    flow := .ofSeed settings.flow (noiseSeed seed)
    seed := some seed
    pointer := none
    frame := 0 }

/-- An engine with the settings and the seed of a share code. -/
def ofShare (view : Viewport) (settings : Settings) (share : Share) : Except Fault Engine :=
  start view (settings.withShare share) share.seed

def resetParticles (e : Engine) : Engine :=
  let (swarm, stream) := e.swarm.reset.run e.stream
  { e with swarm, stream }

def newField (e : Engine) (seed : UInt64) : Except Fault Engine := do
  let (field, stream) ← generate e.settings.strategy seed
  return resetParticles
    { e with
      field, stream
      seed := some seed
      flow := .ofSeed e.settings.flow (noiseSeed seed) }

def loadSource (e : Engine) (code : String) : Except Fault Engine :=
  match FormulaField.ofSource code with
  | .error error => .error (.source error)
  | .ok none => .error .tooLarge
  | .ok (some f) => .ok (resetParticles { e with field := some (.function f), seed := none })

/-- Drops the base field. What is added to it goes on moving the particles. -/
def clearField (e : Engine) : Engine := { e with field := none, seed := none }

def sampler (e : Engine) : Option Sampler := e.field.map fun f p => f.sample p

def moment (e : Engine) : Moment := ⟨e.swarm.clock / 1000.0, e.pointer, e.view⟩

def velocity (e : Engine) : Vec → Vec := e.flow.velocity e.moment e.sampler

def tick (e : Engine) (delta : Float) : Engine :=
  let (swarm, stream) := (e.swarm.tick delta e.velocity).run e.stream
  { e with swarm, stream, frame := e.frame + 1 }

def tick? (e : Engine) (delta : Float) : Option Engine :=
  (e.swarm.tick? delta e.velocity e.stream).map fun (swarm, stream) =>
    { e with swarm, stream, frame := e.frame + 1 }

/-- Adds `n` particles around the pointer, or around the center if there is no pointer. -/
def burst (e : Engine) (n : Nat) : Engine :=
  let (swarm, stream) := (e.swarm.burst (e.pointer.getD e.view.center) n).run e.stream
  { e with swarm, stream }

def burst? (e : Engine) (n : Nat) : Option Engine :=
  (e.swarm.burst? (e.pointer.getD e.view.center) n e.stream).map fun (swarm, stream) =>
    { e with swarm, stream }

/-- Puts the pointer somewhere or takes it away. A pointer that is not finite is none. -/
def setPointer (e : Engine) (pointer : Option Vec) : Engine :=
  { e with pointer := pointer.filter Vec.isFinite }

/-- Changes the settings. The base field stays; a new strategy counts for the next one. -/
def withSettings (e : Engine) (s : Settings) : Engine :=
  { e with
    settings := s
    flow := { e.flow with settings := s.flow }
    swarm := e.swarm.withSettings s.swarm }

def setParameters (e : Engine) (params : Json) : Except Fault Engine :=
  match e.settings.override params with
  | .ok s => .ok (e.withSettings s)
  | .error fault => .error (.parameter fault)

def arrows (e : Engine) (step : Float) : List Arrow := Arrow.grid e.view step e.velocity

def share? (e : Engine) : Option Share := e.seed.map e.settings.share

def source? (e : Engine) : Option String := e.field.bind BaseField.source?

def saved? (e : Engine) (name : String) (now : UInt64) : Option SavedField :=
  e.source?.map fun code => ⟨name, code, now⟩

end Engine

end DriftField
