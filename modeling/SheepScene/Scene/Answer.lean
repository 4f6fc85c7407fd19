import SheepScene.Scene.Components
import SheepScene.Scene.Placement

/-!
# Answers to queries and edits

What a scene answers to a `Query`, and what an `Edit` does to it. Neither runs a component, so both
are functions of the state alone.
-/

set_option autoImplicit false

namespace SheepScene

namespace Clock

variable {K : Type} [Scalar K]

/-- A clock that has not run yet. -/
def start (timeScale : K) : Clock K :=
  { elapsed := 0, delta := 0, timeScale, frames := 0 }

/-- The clock after one more frame; time passes at the clock's own scale. -/
def tick (c : Clock K) (dt : K) : Clock K :=
  let delta := dt * c.timeScale
  { c with elapsed := c.elapsed + delta, delta, frames := c.frames + 1 }

end Clock

namespace World

variable {K B : Type} [Scalar K]

/-- The answer to a query. -/
def answer (w : World K B) : (query : Query K) → query.Answer B
  | .actor e => w.actor? e
  | .state e => (w.actor? e).map (·.state)
  | .find name => w.find? name
  | .actors => w.actors
  | .roster => w.roster
  | .isActive e => w.isActive e
  | .enabled e kind => w.enabledView e kind
  | .components e kind => w.componentsView? e kind
  | .component e kind => w.component? e kind
  | .waitStatus number => w.waits.status? number
  | .listener => w.listener
  | .transform e => w.transform? e
  | .worldRotation e => w.worldRotation? e
  | .worldScale e => w.worldScale? e
  | .localToWorldDirection e v => w.localToWorldDirection? e v
  | .worldToLocalDirection e v => w.worldToLocalDirection? e v
  | .axes e => w.axes? e
  | .isAncestor ancestor e => w.isAncestor ancestor e
  | .anchoring e => w.anchoring? e
  | .parentRect e => w.parentRect e
  | .rect e => w.rect? e
  | .derivedPosition e => w.derivedPosition? e
  | .viewport => w.viewport.map Viewport.rect
  | .clock => w.clock

/-- Puts a command into the queue, if there is one. A number that is not given out yet does not
come to mean the entity that gets it later. -/
def send (w : World K B) (e : EntityId) (action : CommandAction K) : Bool × World K B :=
  match w.commands with
  | none => (false, w)
  | some queued =>
    let target := if e.index < w.entities.size then some e else none
    (true, { w with commands := some (queued ++ [{ target, action }]) })

/-- An entity as it is now. Asking for the place in the world makes its matrix known, and may move
rectangles. -/
def row (w : World K B) (e : EntityId) : Option (EntityRow K) × World K B :=
  match w.entity? e with
  | none => (none, w)
  | some entity =>
    let actor : Option ActorRow := entity.actor.map fun a =>
      { name := a.name, state := a.state, isActive := w.isActive e }
    match entity.transform with
    | none => (some { actor, place := none }, w)
    | some t =>
      let (worldPosition, w) := w.worldPosition e
      let transform := (w.transform? e).getD t
      (some { actor, place := some { dirty := t.isDirty, worldPosition, transform } }, w)

/-- All entities that there have ever been, in order. -/
def snapshot (w : World K B) : List (Option (EntityRow K)) × World K B :=
  ((List.range w.entities.size).map EntityId.mk).foldl (fun (rows, w) e =>
    let (row, w) := w.row e
    (rows ++ [row], w)) ([], w)

/-- Carries out an edit. -/
def apply [Behavior K B] (w : World K B) : (x : Edit K B) → x.Answer × World K B
  | .spawn spec => w.spawn spec
  | .spawnTransform position rotation scale =>
    w.create { Entity.bare with transform := some (.ofParts position rotation scale) }
  | .spawnBare => w.create .bare
  | .despawn e => w.despawn e
  | .setTimeScale e timeScale => ((), w.modifyActor e fun a => { a with timeScale })
  | .setUpdateEnabled e updateEnabled => ((), w.modifyActor e fun a => { a with updateEnabled })
  | .destroy e => ((), w.destroy e)
  | .add e component => w.addComponent e component
  | .retarget e target duration done => w.retarget e target duration done
  | .issueWait => let (handle, waits) := w.waits.issue; (handle, { w with waits })
  | .nameWait number => let (handle, waits) := w.waits.name number; (handle, { w with waits })
  | .completeWait handle => ((), { w with waits := w.waits.complete handle })
  | .place e placement => ((), w.place e placement)
  | .placeInWorld e placement => ((), w.placeInWorld e placement)
  | .worldPosition e => w.worldPosition e
  | .localToWorld e => w.localToWorld e
  | .worldToLocal e => w.worldToLocal e
  | .localToWorldPoint e v => w.localToWorldPoint e v
  | .worldToLocalPoint e v => w.worldToLocalPoint e v
  | .setParent e parent => w.setParent e parent
  | .removeChild parent e => ((), w.removeChild parent e)
  | .translate e offset space => ((), w.translate e offset space)
  | .rotate e rotation space => ((), w.rotate e rotation space)
  | .rotateAround e point rotation => ((), w.rotateAround e point rotation)
  | .invalidate e => ((), w.invalidate e)
  | .changeAnchoring e change => ((), w.changeAnchoring e change)
  | .worldRect e => w.worldRect e
  | .rectContains e point => w.rectContains e point
  | .setViewport viewport => ((), w.setViewport viewport)
  | .send e action => w.send e action
  | .tick dt => ((), { w with clock := w.clock.map fun c => c.tick dt })
  | .setClockScale timeScale =>
    ((), { w with clock := w.clock.map fun c => { c with timeScale } })
  | .publishListener pose => ((), { w with listener := some pose })
  | .snapshot => w.snapshot
  | .draw bound => let (n, random) := w.random.below bound; (n, { w with random })
  | .log level text => ((), w.record (.scriptLog level text))
  | .note text => ((), w.record (.note text))
  | .probed tag hook => ((), w.record (.probed tag hook))

end World

end SheepScene
