import SheepScene.Scene.Entity

/-!
# Requests to a scene

Everything that can be asked of a scene, as data: a `Query` looks and changes nothing, an `Edit`
changes the scene without running any component, and the other requests may run component hooks.
Each has its own type of answer. A `Program` is a sequence of requests in which later ones may
depend on earlier answers; components and host functions are written as programs.
-/

set_option autoImplicit false

namespace SheepScene

/-- What can be looked up. -/
inductive Query (K : Type) where
  | actor (e : EntityId)
  /-- The own state of an actor. -/
  | state (e : EntityId)
  /-- The first actor of a name, in any case, that is not destroyed. -/
  | find (name : String)
  | actors
  /-- The list of actors itself, which exists from the first spawn on. -/
  | roster
  | isActive (e : EntityId)
  | enabled (e : EntityId) (kind : ComponentKind)
  | components (e : EntityId) (kind : ComponentKind)
  /-- The first component of a kind that is not executing. -/
  | component (e : EntityId) (kind : ComponentKind)
  | waitStatus (number : Int)
  | listener
  | transform (e : EntityId)
  | worldRotation (e : EntityId)
  | worldScale (e : EntityId)
  | localToWorldDirection (e : EntityId) (v : Vec3 K)
  | worldToLocalDirection (e : EntityId) (v : Vec3 K)
  /-- Forward, right and up. -/
  | axes (e : EntityId)
  | isAncestor (ancestor e : EntityId)
  | anchoring (e : EntityId)
  | parentRect (e : EntityId)
  | rect (e : EntityId)
  | derivedPosition (e : EntityId)
  | viewport
  | clock

/-- What is known of the components of one kind on an actor. -/
structure EnabledView where
  /-- Whether the first one is enabled, if there is one. -/
  enabled : Option Bool
  activeAndEnabled : Bool
  /-- Whether one of them is not executing. -/
  present : Bool

/-- What is known of all components of an actor. -/
structure ComponentsView where
  count : Nat
  /-- The place of the first component of the kind that was asked for. -/
  index : Option Nat
  enabled : List Bool

/-- The type of the answer to a query. -/
abbrev Query.Answer {K : Type} (B : Type) : Query K → Type
  | .actor _ => Option (Actor K)
  | .state _ => Option ActorState
  | .find _ => Option EntityId
  | .actors => List EntityId
  | .roster => Option (List EntityId)
  | .isActive _ => Bool
  | .enabled .. => EnabledView
  | .components .. => Option ComponentsView
  | .component .. => Option (Component K B)
  | .waitStatus _ => Option Bool
  | .listener => Option (ListenerPose K)
  | .transform _ => Option (Transform K)
  | .worldRotation _ => Option (Quat K)
  | .worldScale _ => Option (Vec3 K)
  | .localToWorldDirection .. => Option (Vec3 K)
  | .worldToLocalDirection .. => Option (Vec3 K)
  | .axes _ => Option (Vec3 K × Vec3 K × Vec3 K)
  | .isAncestor .. => Bool
  | .anchoring _ => Option (Anchoring K)
  | .parentRect _ => Rect K
  | .rect _ => Option (Rect K)
  | .derivedPosition _ => Option (Vec2 K)
  | .viewport => Option (Rect K)
  | .clock => Option (Clock K)

/-- A change of one part of an anchoring. -/
inductive AnchoringChange (K : Type) where
  | anchor (v : Vec2 K)
  | anchorMin (v : Vec2 K)
  | anchorMax (v : Vec2 K)
  | pivot (v : Vec2 K)
  | anchoredPosition (v : Vec2 K)
  | sizeDelta (v : Vec2 K)
  | sizeDeltaX (x : K)
  | sizeDeltaY (y : K)
  | pixelPerfect (b : Bool)

/-- A change of the place of an entity. -/
inductive Placement (K : Type) where
  | position (v : Vec3 K)
  | rotation (q : Quat K)
  | scale (v : Vec3 K)

/-- How much a message matters. -/
inductive Level where
  | info
  | warn
  | error
  deriving DecidableEq, Repr

/-- The name of a level in a log. -/
def Level.name : Level → String
  | .info => "INFO"
  | .warn => "WARN"
  | .error => "ERROR"

/-- What can be changed without running a component. -/
inductive Edit (K B : Type) where
  | spawn (spec : ActorSpec K)
  /-- An entity with a place and nothing else. -/
  | spawnTransform (position : Vec3 K) (rotation : Quat K) (scale : Vec3 K)
  | spawnBare
  /-- Drops an entity at once, with neither links nor lists brought up to date. -/
  | despawn (e : EntityId)
  | setTimeScale (e : EntityId) (scale : K)
  | setUpdateEnabled (e : EntityId) (enabled : Bool)
  | destroy (e : EntityId)
  | add (e : EntityId) (component : Component K B)
  /-- Starts a new move of the first mover that is not executing. -/
  | retarget (e : EntityId) (target : Vec3 K) (duration : K) (done : Option WaitHandle)
  | issueWait
  | nameWait (number : Int)
  | completeWait (handle : WaitHandle)
  | place (e : EntityId) (placement : Placement K)
  | placeInWorld (e : EntityId) (placement : Placement K)
  | worldPosition (e : EntityId)
  | localToWorld (e : EntityId)
  | worldToLocal (e : EntityId)
  | localToWorldPoint (e : EntityId) (v : Vec3 K)
  | worldToLocalPoint (e : EntityId) (v : Vec3 K)
  | setParent (e : EntityId) (parent : Option EntityId)
  | removeChild (parent e : EntityId)
  | translate (e : EntityId) (offset : Vec3 K) (space : Space)
  | rotate (e : EntityId) (rotation : Quat K) (space : Space)
  | rotateAround (e : EntityId) (point : Vec3 K) (rotation : Quat K)
  | invalidate (e : EntityId)
  | changeAnchoring (e : EntityId) (change : AnchoringChange K)
  | worldRect (e : EntityId)
  | rectContains (e : EntityId) (point : Vec2 K)
  | setViewport (viewport : Viewport)
  | send (e : EntityId) (action : CommandAction K)
  | tick (dt : K)
  | setClockScale (scale : K)
  | publishListener (pose : ListenerPose K)
  | snapshot
  /-- A random number below a bound. -/
  | draw (bound : Nat)
  | log (level : Level) (text : String)
  | note (text : String)
  | probed (tag : String) (hook : Hook K)

/-- An actor as a snapshot shows it. -/
structure ActorRow where
  name : String
  state : ActorState
  isActive : Bool

/-- A place as a snapshot shows it: whether its matrix was known, and then all of it. -/
structure PlaceRow (K : Type) where
  dirty : Bool
  worldPosition : Option (Vec3 K)
  transform : Transform K

/-- An entity as a snapshot shows it. -/
structure EntityRow (K : Type) where
  actor : Option ActorRow
  place : Option (PlaceRow K)

/-- The type of the answer to an edit. -/
abbrev Edit.Answer {K B : Type} : Edit K B → Type
  | .spawn _ | .spawnTransform .. | .spawnBare => EntityId
  | .despawn _ | .add .. | .retarget .. | .setParent .. | .rectContains .. => Bool
  | .issueWait | .nameWait _ => WaitHandle
  | .worldPosition _ | .localToWorldPoint .. | .worldToLocalPoint .. => Option (Vec3 K)
  | .localToWorld _ | .worldToLocal _ => Option (Mat4 K)
  | .worldRect _ => Option (Rect K)
  /- Whether there is a queue to send to. -/
  | .send .. => Bool
  | .snapshot => List (Option (EntityRow K))
  | .draw _ => Nat
  | _ => Unit

/-- What can be asked of a scene. -/
inductive Request (K B : Type) where
  | ask (query : Query K)
  | edit (x : Edit K B)
  | setActive (e : EntityId) (active : Bool)
  | setEnabled (e : EntityId) (kind : ComponentKind) (enabled : Bool)
  | updateActor (e : EntityId) (dt : K)
  | lateUpdateActor (e : EntityId) (dt : K)
  /-- Carries out the queued commands. -/
  | applyCommands
  /-- Updates the scheduler. -/
  | runThreads
  /-- Updates every actor by the frame's delta. -/
  | updateActors
  | lateUpdateActors
  /-- Removes the actors that are flagged for removal. -/
  | sweep

/-- The type of the answer to a request. -/
abbrev Request.Answer {K B : Type} : Request K B → Type
  | .ask query => query.Answer B
  | .edit x => x.Answer
  | _ => Unit

/-- A sequence of requests that ends in a result. -/
inductive Program (K B R : Type) where
  | done (result : R)
  | perform (request : Request K B) (next : request.Answer → Program K B R)
  /-- Performs a request and reports its answer under a tag. -/
  | echo (tag : String) (request : Request K B) (next : request.Answer → Program K B R)

namespace Program

variable {K B R S : Type}

/-- Goes on with another program. -/
def bind (p : Program K B R) (f : R → Program K B S) : Program K B S :=
  match p with
  | done result => f result
  | perform request next => perform request fun answer => (next answer).bind f
  | echo tag request next => echo tag request fun answer => (next answer).bind f

instance : Monad (Program K B) where
  pure := done
  bind := bind

/-- The program of one request. -/
def request (r : Request K B) : Program K B r.Answer :=
  perform r done

/-- The program of one query. -/
def ask (q : Query K) : Program K B (q.Answer B) :=
  perform (.ask q) done

/-- The program of one edit. -/
def edit (x : Edit K B) : Program K B x.Answer :=
  perform (.edit x) done

end Program

/-- A host function: what it asks of the scene for given arguments. -/
abbrev HostBody (K B : Type) : Type :=
  List Value → Program K B (Except ScriptError Reply)

/-- Something that happens to an actor and can be observed. -/
inductive ActorEvent (K : Type) where
  | activated (e : EntityId)
  | deactivated (e : EntityId)
  /-- The actor is about to be updated by its own delta. -/
  | updated (e : EntityId) (dt : K)
  /-- The actor is about to be removed. -/
  | destroyed (e : EntityId) (name : String)

/-- What becomes of a hook that is asked for: a component begins to act on it and comes to an end,
or it is put off because the component is executing. -/
inductive HookStage where
  | began
  | ended
  | deferred
  deriving DecidableEq, Repr

/-- Something that is written into the journal of a scene. -/
inductive Event (K B : Type) where
  | actor (event : ActorEvent K)
  /-- A stage of a hook on the component at a place of an actor. -/
  | hook (e : EntityId) (index : Nat) (stage : HookStage) (hook : Hook K)
  /-- A probe was reached by a hook. -/
  | probed (tag : String) (hook : Hook K)
  | echoed (tag : String) (request : Request K B) (answer : request.Answer)
  | note (text : String)
  /-- A message of a script or of the machine that runs it. -/
  | scriptLog (level : Level) (text : String)
  /-- A message of the scene. -/
  | sceneLog (level : Level) (text : String)

end SheepScene
