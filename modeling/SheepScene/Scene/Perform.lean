import SheepScene.Scene.Answer
import SheepScene.Scene.Mover

/-!
# Performing requests

A request may run component hooks and observers, and these are programs of further requests. An
`Impulse` is what sets such a program off. `perform` carries out a request when it is told how to
respond to impulses, and `respond` runs what an impulse sets off by performing its requests with
responses one level deeper. A component that is executing is out of its slot: an impulse for it is
put off, and served when the component has come to an end.
-/

set_option autoImplicit false

namespace SheepScene

/-- Steps that change a scene and may end in a fault. -/
abbrev SceneM (K B : Type) : Type → Type :=
  EStateM Fault (World K B)

/-- What sets off a program of a component or of the observer. -/
inductive Impulse (K : Type) where
  /-- A hook for the component at a place of an actor. -/
  | hook (e : EntityId) (index : Nat) (hook : Hook K)
  /-- Something to observe. -/
  | event (event : ActorEvent K)

/-- Runs a program when it is known how to perform requests, and reports what it echoes. -/
def Program.run {K B R : Type} (perform : (request : Request K B) → SceneM K B request.Answer) :
    Program K B R → SceneM K B R
  | .done result => pure result
  | .perform request next => do (next (← perform request)).run perform
  | .echo tag request next => do
    let answer ← perform request
    modify fun w => w.record (.echoed tag request answer)
    (next answer).run perform

/-- A program that goes on with another one runs the two in turn. -/
theorem Program.run_bind {K B R S : Type}
    (perform : (request : Request K B) → SceneM K B request.Answer) (p : Program K B R)
    (f : R → Program K B S) :
    (p.bind f).run perform = p.run perform >>= fun result => (f result).run perform := by
  induction p with
  | done result => simp [Program.bind, Program.run]
  | perform request next ih => simp [Program.bind, Program.run, ih]
  | echo tag request next ih => simp [Program.bind, Program.run, ih]

namespace SceneM

variable {K B : Type} [Scalar K]

/-- The own state of an actor after it was told to be active or not, if it changes. A destroyed
actor stays destroyed. -/
def switched (state : ActorState) (active : Bool) : Option ActorState :=
  match state, active with
  | .inactive, true => some .active
  | .active, false => some .inactive
  | _, _ => none

/-- An actor that is switched comes to be what it was told to be, and was not destroyed. -/
theorem switched_eq_some {before after : ActorState} {active : Bool}
    (h : switched before active = some after) :
    after = (if active then .active else .inactive) ∧ before ≠ .destroyed := by
  cases before <;> cases active <;> cases h <;> exact ⟨rfl, nofun⟩

section Respond

variable (respond : Impulse K → SceneM K B Unit)

/-- Writes an event into the journal and lets it be observed. -/
def emit (event : ActorEvent K) : SceneM K B Unit := do
  modify fun w => w.record (.actor event)
  respond (.event event)

/-- Sends a hook to the component at a place of an actor, if it is enabled. -/
def dispatch (e : EntityId) (hook : Hook K) (index : Nat) : SceneM K B Unit := do
  if (← get).slotEnabled e index then respond (.hook e index hook)

/-- Sends a hook to the components at the given places, as long as the actor is active. -/
def dispatchWhileActive (e : EntityId) (hook : Hook K) : List Nat → SceneM K B Unit
  | [] => pure ()
  | index :: rest => do
    if (← get).isActive e then
      dispatch respond e hook index
      dispatchWhileActive e hook rest

/-- The places of the components that an actor has now. -/
def places (e : EntityId) : SceneM K B (List Nat) :=
  return List.range ((← get).componentCount e)

/-- Switches the own state of an actor, and tells its enabled components. -/
def setActive (e : EntityId) (active : Bool) : SceneM K B Unit := do
  match ((← get).actor? e).bind fun a => switched a.state active with
  | none => pure ()
  | some state =>
    modify fun w => w.modifyActor e fun a => { a with state }
    emit respond (if active then .activated e else .deactivated e)
    (← places e).forM (dispatch respond e (if active then .enable else .disable))

/-- Switches the first component of a type on or off, and tells it if that is a change. -/
def setEnabled (e : EntityId) (kind : ComponentKind) (enabled : Bool) : SceneM K B Unit := do
  let found := ((← get).slots? e).bind fun slots =>
    (Slots.index? slots kind).bind fun index =>
      if Slots.enabled? slots index = some enabled then none else some index
  match found with
  | none => pure ()
  | some index =>
    modify fun w => w.modifySlot e index fun slot => { slot with enabled }
    respond (.hook e index (if enabled then .enable else .disable))

/-- How much time passes for an actor that takes part in an update; `none` if it does not. -/
def ownDelta (e : EntityId) (dt : K) : SceneM K B (Option K) := do
  let w ← get
  return (w.actor? e).bind fun a =>
    if a.updateEnabled && w.isActive e then some (dt * a.timeScale) else none

/-- Updates an actor. -/
def updateActor (e : EntityId) (dt : K) : SceneM K B Unit := do
  match ← ownDelta e dt with
  | none => pure ()
  | some dt =>
    emit respond (.updated e dt)
    dispatchWhileActive respond e (.update dt) (← places e)

/-- Gives an actor its second update of a frame. -/
def lateUpdateActor (e : EntityId) (dt : K) : SceneM K B Unit := do
  match ← ownDelta e dt with
  | none => pure ()
  | some dt => dispatchWhileActive respond e (.lateUpdate dt) (← places e)

/-- The entity of a command; a command without one warns under the name of the change. -/
def onTarget (target : Option EntityId) (name : String) (act : EntityId → SceneM K B Unit) :
    SceneM K B Unit :=
  match target with
  | some e => act e
  | none => modify fun w => w.warn s!"{name}: there is no such entity"

/-- Carries out a command. -/
def applyCommand (command : Command K) : SceneM K B Unit :=
  let place := fun (placement : Placement K) =>
    onTarget command.target (World.placementName false placement) fun e =>
      modify fun w => w.place e placement
  let quietly := fun (act : EntityId → SceneM K B Unit) =>
    match command.target with
    | some e => act e
    | none => pure ()
  match command.action with
  | .setPosition v => place (.position v)
  | .setRotation q => place (.rotation q)
  | .setScale v => place (.scale v)
  | .setActive active => quietly fun e => setActive respond e active
  | .destroy => quietly fun e => modify fun w => w.destroy e

/-- Carries out the queued commands in the order in which they were sent. -/
def applyCommands : SceneM K B Unit := do
  match (← get).commands with
  | none => pure ()
  | some queued =>
    modify fun w => { w with commands := some [] }
    queued.forM (applyCommand respond)

/-- The delta of the current frame; nothing without a clock. -/
def frameDelta : SceneM K B K := do
  match (← get).clock with
  | some c => return c.delta
  | none => return 0

/-- Updates every actor there is when the pass begins. -/
def updateActors : SceneM K B Unit := do
  let dt ← frameDelta
  (← get).actors.forM fun e => updateActor respond e dt

/-- Gives every actor there is when the pass begins its second update. -/
def lateUpdateActors : SceneM K B Unit := do
  let dt ← frameDelta
  (← get).actors.forM fun e => lateUpdateActor respond e dt

/-- Removes an actor that is flagged for removal. -/
def reclaim (doomed : EntityId × String) : SceneM K B Unit := do
  emit respond (.destroyed doomed.1 doomed.2)
  modify fun w => w.reclaim doomed.1

/-- Removes the actors that are flagged for removal when the sweep begins. -/
def sweep : SceneM K B Unit := do
  (← get).doomed.forM (reclaim respond)

variable [Behavior K B]

/-- Performs a request other than running threads, for which the scheduler is needed. -/
def performWithin : (request : Request K B) → SceneM K B request.Answer
  | .ask query => return (← get).answer query
  | .edit x => modifyGet fun w => w.apply x
  | .setActive e active => setActive respond e active
  | .setEnabled e kind enabled => setEnabled respond e kind enabled
  | .updateActor e dt => updateActor respond e dt
  | .lateUpdateActor e dt => lateUpdateActor respond e dt
  | .applyCommands => applyCommands respond
  | .runThreads => pure ()
  | .updateActors => updateActors respond
  | .lateUpdateActors => lateUpdateActors respond
  | .sweep => sweep respond

/-- The scene as threads see it. A host function runs while the scheduler is at work, so that it
cannot run threads itself. -/
def host : Host (World K B) (HostBody K B) where
  call body args := (body args).run (performWithin respond)
  isComplete w handle := w.waits.isComplete handle
  report message w := w.record (.scriptLog .error message)

/-- Lets the scheduler work on the scene, which is without it in the meantime. -/
def withScheduler {α : Type} (absent : α)
    (work : Scheduler (HostBody K B) → SceneM K B (α × Scheduler (HostBody K B))) :
    SceneM K B α := do
  match (← get).scheduler with
  | none => return absent
  | some scheduler =>
    modify fun w => { w with scheduler := none }
    let (result, scheduler) ← work scheduler
    modify fun w => { w with scheduler := some scheduler }
    return result

/-- Performs a request. -/
def performWith (request : Request K B) : SceneM K B request.Answer :=
  match request with
  | .runThreads =>
    withScheduler () fun scheduler => do return ((), ← scheduler.update (host respond))
  | request => performWithin respond request

end Respond

variable [Behavior K B]

/-- Serves a hook with a component that is out of its slot, and then the hooks that were put off in
the meantime, at most `rounds` in all. The component goes back into its slot afterwards, and is
dropped if its actor has gone. -/
def serve (perform : (request : Request K B) → SceneM K B request.Answer) (rounds : Nat)
    (e : EntityId) (index : Nat) (component : Component K B) (hook : Hook K) :
    SceneM K B Unit := do
  match rounds with
  | 0 => throw .endlessHooks
  | rounds + 1 =>
    modify fun w => w.record (.hook e index .began hook)
    let component ← (component.react e hook).run perform
    modify fun w => w.record (.hook e index .ended hook)
    match (← get).slot? e index with
    | none => modify fun w => w.dropComponent component
    | some slot => match slot.deferred with
      | [] => modify fun w => w.modifySlot e index fun slot =>
          { slot with component := some component }
      | next :: deferred =>
        modify fun w => w.modifySlot e index fun slot => { slot with deferred }
        serve perform rounds e index component next

/-- How many hooks a component may be sent while it executes, and how many components may execute
one inside another. -/
def hookLimit : Nat := 100000

/-- A component serves at least one hook. -/
theorem exists_hookLimit : ∃ rounds, hookLimit = rounds + 1 :=
  ⟨_, rfl⟩

/-- What an impulse sets off, on at most `depth` levels. -/
def respond (depth : Nat) (impulse : Impulse K) : SceneM K B Unit := do
  match depth with
  | 0 => throw .endlessHooks
  | depth + 1 =>
    let perform := performWith fun impulse => respond depth impulse
    match impulse with
    | .event event => (Behavior.observe event).run perform
    | .hook e index hook => match (← get).slot? e index with
      | none => pure ()
      | some slot => match slot.component with
        | none =>
          modify fun w => (w.modifySlot e index fun slot =>
            { slot with deferred := slot.deferred ++ [hook] }).record (.hook e index .deferred hook)
        | some component =>
          modify fun w => w.modifySlot e index fun slot => { slot with component := none }
          serve perform hookLimit e index component hook

/-- Performs a request on a scene in which no component is executing. -/
def perform (request : Request K B) : SceneM K B request.Answer :=
  performWith (respond hookLimit) request

end SceneM

end SheepScene
