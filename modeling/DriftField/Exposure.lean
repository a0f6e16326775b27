import DriftField.Canvas
import DriftField.Engine
/-!
Long exposures: the trails of many ticks in one picture, in which older ones fade.
-/

namespace DriftField.Exposure

def fadeAmount (persistence : Float) : Float :=
  Scalar.lesser (Scalar.greater (1.0 - persistence) 0.0) 1.0

/-- One tick: the picture fades, the engine advances, and the trails are drawn. -/
def step (delta fade : Float) (state : Engine × Canvas) : Engine × Canvas :=
  let e := state.1.tick delta
  (e, e.swarm.segments.foldl Canvas.segment (state.2.fade fade))

def step? (delta fade : Float) (state : Engine × Canvas) : Option (Engine × Canvas) :=
  (state.1.tick? delta).map fun e => (e, e.swarm.segments.foldl Canvas.segment (state.2.fade fade))

def overlay (e : Engine) (c : Canvas) : Canvas :=
  if e.settings.showField then (e.arrows Arrow.spacing).foldl Canvas.arrow c else c

def expose (e : Engine) (c : Canvas) (ticks : Nat) (delta : Float) : Engine × Canvas :=
  let state := Nat.repeat (step delta (fadeAmount e.settings.persistence)) ticks (e, c)
  (state.1, overlay state.1 state.2)

def expose? (e : Engine) (c : Canvas) (ticks : Nat) (delta : Float) : Option (Engine × Canvas) :=
  let state? := Nat.repeat (·.bind (step? delta (fadeAmount e.settings.persistence))) ticks (some (e, c))
  state?.map fun state => (state.1, overlay state.1 state.2)

end DriftField.Exposure
