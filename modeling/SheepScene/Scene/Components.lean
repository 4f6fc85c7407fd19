import SheepScene.Scene.Roster

/-!
# Components on their actors

Components are kept in slots, in the order in which they were added. While a component is executing
its slot is empty and hooks for it are put off; it can be seen by its place then, but not looked up
by its type.
-/

set_option autoImplicit false

namespace SheepScene

/-- Custom components: what type they are of, and what they do when a hook reaches them. A scene
with such components may also observe its actors. -/
class Behavior (K B : Type) where
  /-- The name of a component's type. -/
  typeName : B → String
  /-- What a component on an actor does, ending in the component as it is afterwards. -/
  react : B → EntityId → Hook K → Program K B B
  /-- What is done whenever something happens to an actor; by default, nothing. -/
  observe : ActorEvent K → Program K B Unit := fun _ => .done ()

/-- Scenes without custom components. -/
instance {K : Type} : Behavior K Empty where
  typeName := Empty.elim
  react b := nomatch b

namespace Component

variable {K B : Type}

/-- The type of a component. -/
def kind [Behavior K B] : Component K B → ComponentKind
  | .mover _ => .mover
  | .listener => .listener
  | .custom b => .custom (Behavior.typeName K b)

end Component

/-- A mover set to a new move, which has not begun. -/
def Mover.retargeted {K : Type} [Scalar K] (m : Mover K) (target : Vec3 K) (duration : K)
    (done : Option WaitHandle) : Mover K :=
  { m with origin := none, target, duration, elapsed := 0, finished := false, done }

namespace Slots

variable {K B : Type}

/-- The place of the first component of a type, executing or not. -/
def index? (slots : Array (Slot K B)) (kind : ComponentKind) : Option Nat :=
  slots.findIdx? fun slot => slot.kind == kind

/-- The place of the first component of a type that is not executing. -/
def presentIndex? (slots : Array (Slot K B)) (kind : ComponentKind) : Option Nat :=
  slots.findIdx? fun slot => slot.kind == kind && slot.component.isSome

/-- The first component of a type that is not executing. -/
def present? (slots : Array (Slot K B)) (kind : ComponentKind) : Option (Component K B) :=
  ((presentIndex? slots kind).bind fun i => slots[i]?).bind (·.component)

/-- Whether the component at a place is enabled. -/
def enabled? (slots : Array (Slot K B)) (index : Nat) : Option Bool :=
  slots[index]?.map (·.enabled)

end Slots

namespace World

variable {K B : Type}

/-- Adds a component to an actor, enabled; the answer tells whether there is such an actor. Where
there is none the component is dropped. -/
def addComponent [Behavior K B] (w : World K B) (e : EntityId) (component : Component K B) :
    Bool × World K B :=
  match w.slots? e with
  | some _ =>
    let slot : Slot K B :=
      { kind := component.kind, enabled := true, component := some component, deferred := [] }
    (true, w.modifySlots e fun slots => slots.push slot)
  | none =>
    (false, (w.warn s!"add_actor_component: entity {e.index} is not an actor").dropComponent component)

/-- Whether the first component of a type is enabled, if there is one. -/
def isEnabled? (w : World K B) (e : EntityId) (kind : ComponentKind) : Option Bool :=
  (w.slots? e).bind fun slots => (Slots.index? slots kind).bind (Slots.enabled? slots)

/-- The first component of a type that is not executing. -/
def component? (w : World K B) (e : EntityId) (kind : ComponentKind) :
    Option (Component K B) :=
  (w.slots? e).bind fun slots => Slots.present? slots kind

/-- How many components an actor has. -/
def componentCount (w : World K B) (e : EntityId) : Nat :=
  match w.slots? e with
  | some slots => slots.size
  | none => 0

/-- Whether there is an enabled component at a place. -/
def slotEnabled (w : World K B) (e : EntityId) (index : Nat) : Bool :=
  ((w.slots? e).bind fun slots => Slots.enabled? slots index).getD false

/-- What is known of the components of a type. -/
def enabledView (w : World K B) (e : EntityId) (kind : ComponentKind) : EnabledView :=
  let enabled := w.isEnabled? e kind
  { enabled
    activeAndEnabled := enabled.getD false && w.isActive e
    present := (w.component? e kind).isSome }

/-- What is known of all components of an actor. -/
def componentsView? (w : World K B) (e : EntityId) (kind : ComponentKind) :
    Option ComponentsView :=
  (w.slots? e).map fun slots =>
    { count := slots.size
      index := Slots.index? slots kind
      enabled := slots.toList.map (·.enabled) }

/-- Starts a new move of the first mover of an actor that is not executing, and lets go of whoever
waits for the old one; the answer tells whether there is such a mover. -/
def retarget [Scalar K] (w : World K B) (e : EntityId) (target : Vec3 K) (duration : K)
    (done : Option WaitHandle) : Bool × World K B :=
  match (w.slots? e).bind fun slots => Slots.presentIndex? slots .mover with
  | none => (false, w)
  | some index => match w.component? e .mover with
    | some (.mover m) =>
      let released := match m.done with
        | some handle => { w with waits := w.waits.complete handle }
        | none => w
      (true, released.modifySlot e index fun slot =>
        { slot with component := some (.mover (m.retargeted target duration done)) })
    | _ => (false, w)

end World

end SheepScene
