import SheepScene.Geometry.Matrix
import SheepScene.Geometry.Rect
import SheepScene.Machine.Host

/-!
# What a scene is made of

Entities are numbered in the order of their creation, and a number is never given out again. An
entity may be an actor, have a place in the transform tree, be laid out as a rectangle, and carry
components; an actor that is spawned has all of these but the rectangle.
-/

set_option autoImplicit false

namespace SheepScene

/-- The number of an entity. -/
structure EntityId where
  index : Nat
  deriving DecidableEq, Repr

/-- The own state of an actor, whatever its ancestors are. -/
inductive ActorState where
  | active
  | inactive
  /-- Flagged for removal at the end of the frame. -/
  | destroyed
  deriving DecidableEq, Repr

/-- What makes an entity an actor. -/
structure Actor (K : Type) where
  name : String
  state : ActorState
  /-- How fast time passes for its components. -/
  timeScale : K
  updateEnabled : Bool

/-- The place of an entity in its parent's space, the links of the tree, and the matrices that have
been computed since the last change; `none` where they have to be computed again. -/
structure Transform (K : Type) where
  position : Vec3 K
  rotation : Quat K
  scale : Vec3 K
  parent : Option EntityId
  children : List EntityId
  localToWorld : Option (Mat4 K)
  worldToLocal : Option (Mat4 K)

namespace Transform

variable {K : Type}

/-- A place without parent and children. -/
def ofParts (position : Vec3 K) (rotation : Quat K) (scale : Vec3 K) : Transform K :=
  { position, rotation, scale, parent := none, children := [], localToWorld := none,
    worldToLocal := none }

/-- Whether the world matrix has to be computed again. -/
def isDirty (t : Transform K) : Bool :=
  t.localToWorld.isNone

/-- Forgets the matrices. -/
def invalidated (t : Transform K) : Transform K :=
  { t with localToWorld := none, worldToLocal := none }

/-- The matrix into the parent's space. -/
def localMatrix [Scalar K] (t : Transform K) : Mat4 K :=
  .ofParts t.scale t.rotation t.position

end Transform

/-- How fast a move goes at each moment. -/
inductive Easing where
  | linear
  | quadIn
  | quadOut
  | quadInOut
  deriving DecidableEq, Repr

/-- A timed move of an actor to a point of the world. -/
structure Mover (K : Type) where
  /-- Where the move began, once it has begun. -/
  origin : Option (Vec3 K)
  target : Vec3 K
  duration : K
  elapsed : K
  easing : Easing
  finished : Bool
  /-- What completes when the move is over. -/
  done : Option WaitHandle

/-- The type of a component; there can be several components of a type on an actor. -/
inductive ComponentKind where
  | mover
  | listener
  | custom (name : String)
  deriving DecidableEq, Repr

/-- A component: one of the two that scenes come with, or one of the custom components `B`. -/
inductive Component (K B : Type) where
  | mover (m : Mover K)
  | listener
  | custom (b : B)

/-- An occasion on which a component acts. -/
inductive Hook (K : Type) where
  | enable
  | disable
  | update (dt : K)
  | lateUpdate (dt : K)

/-- The place of a component on its actor. -/
structure Slot (K B : Type) where
  kind : ComponentKind
  enabled : Bool
  /-- The component, unless it is executing at the moment. -/
  component : Option (Component K B)
  /-- Hooks that were asked for while the component was executing, oldest first. -/
  deferred : List (Hook K)

/-- Everything that is known of an entity. -/
structure Entity (K B : Type) where
  actor : Option (Actor K)
  transform : Option (Transform K)
  anchoring : Option (Anchoring K)
  slots : Option (Array (Slot K B))

/-- An entity with nothing. -/
def Entity.bare {K B : Type} : Entity K B :=
  { actor := none, transform := none, anchoring := none, slots := none }

/-- What is needed to spawn an actor. -/
structure ActorSpec (K : Type) where
  name : String
  position : Vec3 K
  rotation : Quat K
  scale : Vec3 K
  parent : Option EntityId
  timeScale : K
  active : Bool
  anchoring : Option (Anchoring K)

/-- An active actor of the given name at the origin. -/
def ActorSpec.named {K : Type} [Scalar K] (name : String) : ActorSpec K :=
  { name, position := .splat 0, rotation := .identity, scale := .splat 1, parent := none,
    timeScale := 1, active := true, anchoring := none }

/-- The passing of time in a scene. -/
structure Clock (K : Type) where
  elapsed : K
  delta : K
  timeScale : K
  frames : Nat

/-- Where the ears of the scene are, and whose they are. -/
structure ListenerPose (K : Type) where
  actor : Option EntityId
  position : Vec3 K
  rotation : Quat K

/-- Nobody's ears, at the origin. -/
def ListenerPose.unowned {K : Type} [Scalar K] : ListenerPose K :=
  { actor := none, position := .splat 0, rotation := .identity }

/-- The size of the outermost rectangle. -/
structure Viewport where
  width : Int32
  height : Int32
  deriving DecidableEq

/-- What can be done to an actor from outside the frame. -/
inductive CommandAction (K : Type) where
  | setPosition (position : Vec3 K)
  | setRotation (rotation : Quat K)
  | setScale (scale : Vec3 K)
  | setActive (active : Bool)
  | destroy

/-- A command in the queue; without target where the entity did not exist when it was sent. -/
structure Command (K : Type) where
  target : Option EntityId
  action : CommandAction K

/-- The space in which an offset or a rotation is given. -/
inductive Space where
  | own
  | world
  deriving DecidableEq, Repr

end SheepScene
