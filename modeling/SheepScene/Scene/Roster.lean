import SheepScene.Scene.Placement
import SheepScene.Text.Case

/-!
# Actors coming and going

Actors are listed in the order of their creation. Destroying one only flags it, together with
everything below it; the sweep at the end of a frame takes the flagged ones out of the tree, the
list and the scene. A component that is dropped lets go of whoever waits for it.
-/

set_option autoImplicit false

namespace SheepScene.World

variable {K B : Type}

/-- The actors in the order of their creation. -/
def actors (w : World K B) : List EntityId :=
  w.roster.getD []

/-- Adds an actor to the scene. -/
def spawn (w : World K B) (spec : ActorSpec K) : EntityId × World K B :=
  let everywhere := match w.settings with
    | some settings => settings.pixelPerfect
    | none => false
  let (e, w) := w.create {
    actor := some {
      name := spec.name
      state := if spec.active then .active else .inactive
      timeScale := spec.timeScale
      updateEnabled := true }
    transform := some (.ofParts spec.position spec.rotation spec.scale)
    anchoring := spec.anchoring.map fun a =>
      { a with pixelPerfect := a.pixelPerfect || everywhere }
    slots := some #[] }
  let w := { w with roster := some (w.actors ++ [e]) }
  match spec.parent with
  | some parent => (e, (w.setParent e (some parent)).2)
  | none => (e, w)

/-- The first actor of a name, in any case, that is not destroyed. -/
def find? (w : World K B) (name : String) : Option EntityId :=
  w.actors.find? fun e => match w.actor? e with
    | some a => a.state != .destroyed && Text.sameName a.name name
    | none => false

/-- Whether an entity is an actor that is active together with all actors above it. -/
def isActive (w : World K B) (e : EntityId) : Bool :=
  (w.actor? e).isSome && (w.lineage e).all fun node => match w.actor? node with
    | some a => a.state == .active
    | none => true

/-- Flags an actor and everything below it for removal. -/
def destroy (w : World K B) (e : EntityId) : World K B :=
  (w.subtree e).foldl (fun w e => w.modifyActor e fun a => { a with state := .destroyed }) w

/-- Completes what waits for a mover that goes away. -/
def dropComponent (w : World K B) : Component K B → World K B
  | .mover { done := some handle, .. } => { w with waits := w.waits.complete handle }
  | _ => w

/-- Drops an entity with its components; the answer tells whether it was there. -/
def despawn (w : World K B) (e : EntityId) : Bool × World K B :=
  match w.entity? e with
  | none => (false, w)
  | some entity =>
    let components := ((entity.slots.getD #[]).toList.filterMap (·.component))
    (true, components.foldl dropComponent
      { w with entities := w.entities.setIfInBounds e.index none })

/-- Takes an actor out of the tree, the scene and the list of actors. -/
def reclaim (w : World K B) (e : EntityId) : World K B :=
  let w := ((w.detach e).despawn e).2
  { w with roster := w.roster.map fun roster => roster.filter (· != e) }

/-- The actors that are flagged for removal, with their names. -/
def doomed (w : World K B) : List (EntityId × String) :=
  w.actors.filterMap fun e => match w.actor? e with
    | some a => if a.state = .destroyed then some (e, a.name) else none
    | none => none

end SheepScene.World
