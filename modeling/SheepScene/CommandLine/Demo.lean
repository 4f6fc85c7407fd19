import SheepScene.Scene.Frame

/-!
# The demo scene

A listener with a child, and a rectangle over the whole viewport with a bar in it: enough for a
script to act on. A run goes on until every thread has ended or the frames are used up, and then
reports where the actors are.
-/

set_option autoImplicit false

namespace SheepScene

namespace Demo

/-- Steps in a scene that has only the components it comes with. -/
abbrev Steps : Type → Type :=
  SceneM Float32 Empty

/-- Carries out an edit. -/
def edit (x : Edit Float32 Empty) : Steps x.Answer :=
  SceneM.perform (.edit x)

/-- Spawns the actors of the demo scene. -/
def populate : Steps Unit := do
  let gabriel ← edit (.spawn (.named "Gabriel"))
  let _ ← edit (.add gabriel .listener)
  let _ ← edit (.spawn { ActorSpec.named "Grace" with
    parent := some gabriel
    position := ⟨2, 0, 0⟩ })
  let hud ← edit (.spawn { ActorSpec.named "Hud" with anchoring := some .stretched })
  let bar : Anchoring Float32 := { Anchoring.centered with
    anchorMin := ⟨0, 1⟩
    anchorMax := ⟨1, 1⟩
    pivot := ⟨1 / 2, 1⟩
    sizeDelta := ⟨0, 200⟩ }
  let _ ← edit (.spawn { ActorSpec.named "ActionBar" with
    parent := some hud
    anchoring := some bar })

/-- Writes a message into the journal. -/
def say (level : Level) (text : String) : Steps Unit :=
  modify fun w => w.record (.sceneLog level text)

/-- Whether every thread has ended. -/
def isIdle : Steps Bool := do
  match (← get).scheduler with
  | some scheduler => return scheduler.isIdle
  | none => return true

/-- Goes on by at most so many frames of `dt` while threads are running, and counts them on top of
those before. -/
def runFrames (dt : Float32) (ran : Nat) : Nat → Steps Nat
  | 0 => return ran
  | frames + 1 => do
    if ← isIdle then return ran
    SceneM.frame dt
    runFrames dt (ran + 1) frames

/-- The text of a point. -/
def pointText (v : Vec3 Float32) : String :=
  let write := FloatLayout.plain.write
  s!"[{write v.x}, {write v.y}, {write v.z}]"

/-- The text of a rectangle. -/
def rectText (r : Rect Float32) : String :=
  let write := FloatLayout.field.write
  s!"Rect \x7b x: {write r.x}, y: {write r.y}, width: {write r.width}, height: {write r.height} \x7d"

/-- Reports where an actor is: its rectangle, or else its place. -/
def reportActor (e : EntityId) : Steps Unit := do
  let name := (((← get).actor? e).map (·.name)).getD ""
  let active := (← get).isActive e
  let report := fun (place : String) =>
    say .info s!"{Text.alignLeft 10 name} active={active} {place}"
  match ← edit (.worldRect e) with
  | some rect => report s!"rect={rectText rect}"
  | none => match ← edit (.worldPosition e) with
    | some position => report s!"position={pointText position}"
    | none => return ()

/-- Reports where all actors are, and where the listener is. -/
def report : Steps Unit := do
  (← get).actors.forM reportActor
  let pose := (← get).listener.getD .unowned
  let facing := pose.rotation.rotate .unitZ
  say .info s!"Listener at {pointText pose.position} facing {pointText facing}"

/-- Runs a function of a script in the demo scene. -/
def run (script : Script) (function : String) (frames : UInt32) (dt : Float32) :
    Steps (Except ScriptError Unit) := do
  populate
  if let some (.error e) ← SceneM.startThread script function then return .error e
  let ran ← runFrames dt 0 frames.toNat
  if !(← isIdle) then
    say .warn s!"Stopped after {frames.toNat} frames with script threads still running"
  say .info s!"Ran {ran} frame(s)"
  report
  return .ok ()

end Demo

end SheepScene
