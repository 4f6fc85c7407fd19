import SheepScene.Number.Random
import SheepScene.Scene.Request
import SheepScene.Settings.Basic

/-!
# The state of a scene

A `World` holds the entities by number and what belongs to the scene as a whole. The parts that a
scene can do without are optional: a bare world has none of them. What happens is written into the
journal, in order.
-/

set_option autoImplicit false

namespace SheepScene

/-- The state of a scene with coordinates `K` and custom components `B`. -/
structure World (K B : Type) where
  /-- The entities by number; `none` where one has been dropped. -/
  entities : Array (Option (Entity K B))
  /-- The actors in the order of their creation. -/
  roster : Option (List EntityId)
  clock : Option (Clock K)
  viewport : Option Viewport
  /-- Commands sent from outside, oldest first. -/
  commands : Option (List (Command K))
  listener : Option (ListenerPose K)
  settings : Option Settings
  waits : Waits
  random : RandomSource
  /-- The scheduler, except while it is at work. -/
  scheduler : Option (Scheduler (HostBody K B))
  journal : Array (Event K B)

namespace World

variable {K B : Type}

/-- A world with nothing in it. -/
def bare : World K B :=
  { entities := #[], roster := none, clock := none, viewport := none, commands := none,
    listener := none, settings := none, waits := .none, random := .start, scheduler := none,
    journal := #[] }

/-- Writes into the journal. -/
def record (w : World K B) (event : Event K B) : World K B :=
  { w with journal := w.journal.push event }

/-- Warns of a request that names something that is not there. -/
def warn (w : World K B) (text : String) : World K B :=
  w.record (.sceneLog .warn text)

/-- An entity that has not been dropped. -/
def entity? (w : World K B) (e : EntityId) : Option (Entity K B) :=
  (w.entities[e.index]?).join

/-- The actor that an entity is. -/
def actor? (w : World K B) (e : EntityId) : Option (Actor K) :=
  (w.entity? e).bind (·.actor)

/-- The place of an entity. -/
def transform? (w : World K B) (e : EntityId) : Option (Transform K) :=
  (w.entity? e).bind (·.transform)

/-- The anchoring of an entity that is laid out as a rectangle. -/
def anchoring? (w : World K B) (e : EntityId) : Option (Anchoring K) :=
  (w.entity? e).bind (·.anchoring)

/-- The components of an actor. -/
def slots? (w : World K B) (e : EntityId) : Option (Array (Slot K B)) :=
  (w.entity? e).bind (·.slots)

/-- The component slot at a place of an actor. -/
def slot? (w : World K B) (e : EntityId) (index : Nat) : Option (Slot K B) :=
  (w.slots? e).bind fun slots => slots[index]?

/-- The parent of an entity. -/
def parent? (w : World K B) (e : EntityId) : Option EntityId :=
  (w.transform? e).bind (·.parent)

/-- The children of an entity. -/
def children (w : World K B) (e : EntityId) : List EntityId :=
  match w.transform? e with
  | some t => t.children
  | none => []

/-- Changes an entity, if it is there. -/
def modifyEntity (w : World K B) (e : EntityId) (f : Entity K B → Entity K B) : World K B :=
  { w with entities := w.entities.modify e.index (Option.map f) }

/-- Changing an entity changes it as it says and no other one. -/
theorem entity?_modifyEntity (w : World K B) (e other : EntityId)
    (f : Entity K B → Entity K B) :
    (w.modifyEntity e f).entity? other
      = if other = e then (w.entity? other).map f else w.entity? other := by
  obtain ⟨i⟩ := e
  obtain ⟨j⟩ := other
  simp only [modifyEntity, entity?, Array.getElem?_modify, EntityId.mk.injEq]
  by_cases h : i = j
  · subst h
    cases w.entities[i]? <;> simp
  · simp [h, Ne.symm h]

/-- Changes an actor. -/
def modifyActor (w : World K B) (e : EntityId) (f : Actor K → Actor K) : World K B :=
  w.modifyEntity e fun entity => { entity with actor := entity.actor.map f }

/-- Changes the place of an entity. -/
def modifyTransform (w : World K B) (e : EntityId) (f : Transform K → Transform K) : World K B :=
  w.modifyEntity e fun entity => { entity with transform := entity.transform.map f }

/-- Changes the components of an actor. -/
def modifySlots (w : World K B) (e : EntityId) (f : Array (Slot K B) → Array (Slot K B)) :
    World K B :=
  w.modifyEntity e fun entity => { entity with slots := entity.slots.map f }

/-- Changes one component slot of an actor. -/
def modifySlot (w : World K B) (e : EntityId) (index : Nat) (f : Slot K B → Slot K B) : World K B :=
  w.modifySlots e fun slots => slots.modify index f

/-- Adds an entity under the next number. -/
def create (w : World K B) (entity : Entity K B) : EntityId × World K B :=
  (⟨w.entities.size⟩, { w with entities := w.entities.push (some entity) })

end World

end SheepScene
