import DriftField.Command.Answer
import DriftField.Command.Invocation
import DriftField.Exposure
/-!
Requests for pictures: the engine and the picture that a request asks for, and what is said about them.
-/

namespace DriftField.RenderRequest

open Command

def pointerOf? (text : String) : Option Vec := do
  let (x, y) ← Text.cut? ',' text.toList
  let x ← Text.finite? (Text.trim x)
  let y ← Text.finite? (Text.trim y)
  return ⟨x, y⟩

def settings (r : RenderRequest) : Attempt Settings := do
  let some params := Json.read? r.parameters | .error .badParameters
  let s ← presetSettings r.preset
  let s ← lift .parameter (s.override params)
  return { s with showField := s.showField || r.showField }

def view (r : RenderRequest) : Attempt Viewport :=
  match Viewport.ofSides? r.width.toUInt64.toFloat r.height.toUInt64.toFloat with
  | some view => .ok view
  | none => .error (.fault .dimensions)

/-- An engine with the seed or the share code of a request. -/
def startEngine (view : Viewport) (s : Settings) : RenderStart → Attempt Engine
  | .seed seed => lift id (Engine.start view s seed)
  | .share code => do
      let share ← lift .share (Share.decode code)
      lift id (Engine.ofShare view s share)

def takeSource (files : Files) (e : Engine) : Option String → Attempt Engine
  | none => .ok e
  | some path => do
      let code ← textOf files path
      lift id (e.loadSource code)

def takePointer (e : Engine) : Option String → Attempt Engine
  | none => .ok e
  | some text =>
      match pointerOf? text with
      | some p => .ok (e.setPointer (some p))
      | none => .error (.badPointer text)

def engine (r : RenderRequest) (files : Files) : Attempt Engine := do
  let s ← r.settings
  let view ← r.view
  let e ← startEngine view s r.start
  let e ← takeSource files e r.sourceFile
  let e ← takePointer e r.pointer
  return r.burst.elim e e.burst

def memoryLimit : Nat := 0x800000000

/-- The empty picture that a request asks for. A pixel takes three numbers of eight bytes. -/
def canvas (r : RenderRequest) : Attempt Canvas :=
  let pixels := r.width * r.height
  if memoryLimit < 24 * pixels && pixels < Canvas.sizeBound then .error (.outOfMemory (24 * pixels))
  else match Canvas.ofSides? r.width r.height with
  | some canvas => .ok canvas
  | none => .error (.fault .dimensions)

/-- The engine after its last tick, and the picture. -/
def exposure (r : RenderRequest) (files : Files) : Attempt (Engine × Canvas) := do
  let e ← r.engine files
  let canvas ← r.canvas
  return Exposure.expose e canvas r.ticks r.delta

def report (r : RenderRequest) (e : Engine) : Json :=
  Json.record
    [("preset", .text r.preset),
      ("seed", e.seed.elim .null fun seed => Json.ofNat seed.toNat),
      ("share", e.share?.elim .null fun share => .text share.encode),
      ("source", e.source?.elim .null .text),
      ("width", Json.ofNat r.width),
      ("height", Json.ofNat r.height),
      ("ticks", Json.ofNat r.ticks),
      ("particles", Json.ofNat e.swarm.size),
      ("params", e.settings.parameters),
      ("output", .text r.output)]

def originText (e : Engine) : String :=
  match e.share?, e.source? with
  | some share, _ => "share " ++ share.encode
  | none, some _ => "source file"
  | none, none => "no field"

def text (r : RenderRequest) (e : Engine) : String :=
  s!"rendered {r.preset} ({r.width}x{r.height}, {r.ticks} ticks, {originText e}) -> {r.output}\n"

def sideBound : Nat := UInt32.size

def answer (r : RenderRequest) (json : Bool) (files : Files) : Attempt Answer := do
  let (e, canvas) ← r.exposure files
  if sideBound ≤ canvas.width || sideBound ≤ canvas.height then .error (.fault .dimensions)
  else
    let write := some (r.output, Content.picture canvas)
    return if json then ⟨Json.prettyText (r.report e) ++ "\n", "", write⟩
      else ⟨"", r.text e, write⟩

end DriftField.RenderRequest
