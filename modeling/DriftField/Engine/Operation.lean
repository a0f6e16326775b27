import DriftField.Engine
/-!
The operations on an engine as they are carried out in place, one assignment after another. A failure ends an operation
and undoes nothing.
-/

namespace DriftField

namespace Engine

/-- A computation that changes an engine and may fail on the way. -/
abbrev Change := ExceptT Fault (StateM Engine)

namespace Change

def demand {ε α : Type} (fault : ε → Fault) : Except ε α → Change α
  | .ok a => return a
  | .error error => throw (fault error)

def drawSwarm (draw : Swarm → Draw Swarm) : Change Unit :=
  modify fun e =>
    let (swarm, stream) := (draw e.swarm).run e.stream
    { e with swarm, stream }

def resetParticles : Change Unit := drawSwarm Swarm.reset

/-- Takes a field with its seed, the stream that its drawing left, and fresh particles. -/
def takeField (seed : UInt64) (rest : Stream) (field : Option BaseField) : Change Unit := do
  modify fun e => { e with field }
  modify fun e => { e with seed := some seed }
  modify fun e => { e with flow := .ofSeed e.settings.flow (noiseSeed seed) }
  modify fun e => { e with stream := ((Draw.fork particleSalt).run rest).1 }
  resetParticles

def newField (seed : UInt64) : Change Unit := do
  let drawn := (BaseField.generate (← get).settings.strategy).run (Stream.ofSeed seed)
  let field ← demand .synthesis drawn.1
  takeField seed drawn.2 field

def takeFormula (f : FormulaField) : Change Unit := do
  modify fun e => { e with field := some (.function f) }
  modify fun e => { e with seed := none }
  resetParticles

def loadSource (code : String) : Change Unit := do
  let components ← demand .source (Components.parse code)
  match FormulaField.of? components with
  | some f => takeFormula f
  | none => throw .tooLarge

def clearField : Change Unit := do
  modify fun e => { e with field := none }
  modify fun e => { e with seed := none }

def tick (delta : Float) : Change Unit := do
  let velocity := (← get).velocity
  drawSwarm fun swarm => swarm.tick delta velocity
  modify fun e => { e with frame := e.frame + 1 }

def burst (n : Nat) : Change Unit := do
  let e ← get
  drawSwarm fun swarm => swarm.burst (e.pointer.getD e.view.center) n

def setPointer (pointer : Option Vec) : Change Unit :=
  modify fun e => { e with pointer := pointer.filter Vec.isFinite }

def withSettings (s : Settings) : Change Unit := do
  modify fun e => { e with flow := { e.flow with settings := s.flow } }
  modify fun e => { e with swarm := e.swarm.withSettings s.swarm }
  modify fun e => { e with settings := s }

def setParameters (params : Json) : Change Unit := do
  let s ← demand .parameter ((← get).settings.override params)
  withSettings s

end Change

inductive Operation where
  | newField (seed : UInt64)
  | loadSource (code : String)
  | clearField
  | tick (delta : Float)
  | burst (n : Nat)
  | setPointer (pointer : Option Vec)
  | withSettings (s : Settings)
  | setParameters (params : Json)
  | resetParticles

namespace Operation

def change : Operation → Change Unit
  | newField seed => Change.newField seed
  | loadSource code => Change.loadSource code
  | clearField => Change.clearField
  | tick delta => Change.tick delta
  | burst n => Change.burst n
  | setPointer pointer => Change.setPointer pointer
  | withSettings s => Change.withSettings s
  | setParameters params => Change.setParameters params
  | resetParticles => Change.resetParticles

/-- Carries out the operation. There is an engine after it whether it failed or not. -/
def perform (op : Operation) (e : Engine) : Except Fault Unit × Engine := op.change.run e

def perform? (e : Engine) : Operation → Option (Except Fault Unit × Engine)
  | tick delta => (e.tick? delta).map (.ok (), ·)
  | burst n => (e.burst? n).map (.ok (), ·)
  | op => some (op.perform e)

end Operation

end Engine

end DriftField
