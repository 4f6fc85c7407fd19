import SheepScene.Proofs.Machine.RunTriples
import SheepScene.Proofs.Scene.Programs
import SheepScene.Scene.Frame

/-!
# What a scene keeps

Requests run hooks and observers, which perform requests in turn, to any depth, while the
components that are executing are out of their slots. An invariant may therefore depend on a
context: `I c w` speaks of the world and of what goes on around it.

`Steady` lists what is to be shown of an invariant for the changes that requests make by themselves,
and `Responds` what is to be shown of the hooks and observers that they run. From these it is kept
by every request, and by everything that can happen to a scene between frames and in them
(`Lasting.reachable`).

Most invariants only have to know which components are out, the innermost first. `Kept` lists what
is to be shown of such an invariant, one condition for each elementary change. From these it is kept
by every response (`Kept.respond`), so that it lasts (`Kept.lasting`).

Programs of components, observers and host functions can be of many kinds. The invariant is shown
for those that are `fit`, and the scene is one in which all of them are.
-/

set_option autoImplicit false

namespace SheepScene

variable {K B : Type}

/-- A component that is executing, and its place. -/
structure Executing (K B : Type) where
  actor : EntityId
  index : Nat
  component : Component K B

/-- Requests that may run components. -/
def Request.Compound : Request K B → Prop
  | .ask _ | .edit _ => False
  | _ => True

/-- Hooks that are sent in an update. -/
def Hook.Updates : Hook K → Prop
  | .update _ | .lateUpdate _ => True
  | .enable | .disable => False

/-- Events that neither switch an actor nor have a component begin to act or wait. -/
def Event.Aside : Event K B → Prop
  | .hook _ _ stage _ => stage = .ended
  | .actor (.activated _) | .actor (.deactivated _) => False
  | _ => True

/-- A class of programs. -/
abbrev Fitness (K B : Type) : Type 1 :=
  (R : Type) → Program K B R → Prop

/-- Custom components and observers run programs of a class. -/
structure CustomFit [Behavior K B] (fit : Fitness K B) : Prop where
  react : ∀ (b : B) e (hook : Hook K), fit B (Behavior.react b e hook)
  observe : ∀ event, fit Unit (Behavior.observe event)

/-- A way to perform requests. -/
abbrev Performer (K B : Type) : Type :=
  (request : Request K B) → SceneM K B request.Answer

/-- A way to perform requests that looks, edits as the world does, and otherwise keeps an
invariant. -/
structure Serves [Scalar K] [Behavior K B] {C : Type} (I : C → World K B → Prop)
    (perform : Performer K B) : Prop where
  ask : ∀ query, perform (.ask query) = do return (← get).answer query
  edit : ∀ x, perform (.edit x) = modifyGet fun w => w.apply x
  compound : ∀ request, request.Compound → ∀ c, Keeps (I c) (perform request)

/-! ## Runs of programs -/

section Run

variable {R S : Type} {P : World K B → Prop} {T : S → World K B → Prop}
  {perform : Performer K B}

/-- A program that only returns leaves the world as it found it. -/
theorem ensures_runPure {T : R → World K B → Prop} {r : R} (h : ∀ w, P w → T r w) :
    Ensures P ((pure r : Program K B R).run perform) T :=
  ensures_pure h

/-- The result of a run is of the kind that the program yields. -/
theorem Program.Yields.run {kind : R → Prop} {p : Program K B R} (h : p.Yields kind)
    {w w' : World K B} {r : R}
    (hrun : p.run perform w = .ok r w') : kind r := by
  induction p generalizing w with
  | done _ =>
    cases hrun
    exact h
  | perform request next ih =>
    obtain ⟨answer, _, _, hrun⟩ := bind_ok hrun
    exact ih answer (h answer) hrun
  | echo tag request next ih =>
    obtain ⟨answer, _, _, hrun⟩ := bind_ok hrun
    obtain ⟨_, _, _, hrun⟩ := bind_ok hrun
    exact ih answer (h answer) hrun

/-- What holds after one program may be used for the next one. -/
theorem ensures_runBind {Q : R → World K B → Prop} {p : Program K B R} {f : R → Program K B S}
    (hp : Ensures P (p.run perform) Q) (hf : ∀ r, Ensures (Q r) ((f r).run perform) T) :
    Ensures P ((p >>= f).run perform) T := by
  change Ensures P ((p.bind f).run perform) T
  rw [Program.run_bind]
  exact ensures_bind hp hf

/-- A program of one request does what the request does. -/
theorem ensures_runRequest {request : Request K B} {T : request.Answer → World K B → Prop}
    (h : Ensures P (perform request) T) : Ensures P ((Program.request request).run perform) T :=
  ensures_bind h fun _ => ensures_pure fun _ hw => hw

variable [Scalar K] [Behavior K B] {C : Type} {I : C → World K B → Prop}
  (serves : Serves I perform)
include serves

/-- A query is answered by the world and leaves it alone. -/
theorem Serves.ensures_ask {query : Query K} {T : query.Answer B → World K B → Prop}
    (h : ∀ w, P w → T (w.answer query) w) : Ensures P ((Program.ask query).run perform) T := by
  refine ensures_runRequest ?_
  rw [serves.ask]
  exact ensures_getBind fun w hw => ensures_pure fun v hv => hv ▸ h w hw

/-- An edit is made as the world makes it. -/
theorem Serves.ensures_edit {x : Edit K B} {T : x.Answer → World K B → Prop}
    (h : ∀ w, P w → T (w.apply x).1 (w.apply x).2) :
    Ensures P ((Program.edit x).run perform) T := by
  refine ensures_runRequest ?_
  rw [serves.edit]
  exact ensures_modifyGet h

/-- An invariant that edits of some kind keep is kept by the requests of this kind. -/
theorem Serves.keeps_request {allowed : Request K B → Prop} {c : C}
    (edits : ∀ x w, allowed (.edit x) → I c w → I c (w.apply x).2) {request : Request K B}
    (h : allowed request) : Keeps (I c) (perform request) := by
  cases request with
  | ask query =>
    rw [serves.ask]
    exact keeps_getBind fun _ _ => keeps_pure _
  | edit x =>
    rw [serves.edit]
    exact ensures_modifyGet fun w hw => edits x w h hw
  | _ =>
    refine serves.compound _ ?_ c
    trivial

/-- Programs keep an invariant that their requests keep. -/
theorem Serves.keeps_only {allowed : Request K B → Prop} {c : C}
    (edits : ∀ x w, allowed (.edit x) → I c w → I c (w.apply x).2)
    (record : ∀ event w, event.Aside → I c w → I c (w.record event)) {p : Program K B R}
    (h : p.Only allowed) : Keeps (I c) (p.run perform) := by
  induction p with
  | done r => exact keeps_pure r
  | perform request next ih =>
    exact keeps_bind (serves.keeps_request edits h.1) fun answer => ih answer (h.2 answer)
  | echo tag request next ih =>
    refine keeps_bind (serves.keeps_request edits h.1) fun answer => ?_
    exact keeps_bind (keeps_modify fun w => record _ w trivial) fun _ => ih answer (h.2 answer)

end Run

variable [Scalar K]

/-- A program that is run on a world comes to an end that passes a check. -/
def Program.passes [Behavior K B] {R : Type} (p : Program K B R) (w : World K B)
    (check : R → World K B → Bool) : Bool :=
  match p.run SceneM.perform w with
  | .ok result w' => check result w'
  | .error _ _ => false

/-- A program that passes a check has a run that passes it. -/
theorem Program.exists_of_passes [Behavior K B] {R : Type} {p : Program K B R} {w : World K B}
    {check : R → World K B → Bool} (h : p.passes w check = true) :
    ∃ result w', p.run SceneM.perform w = .ok result w' ∧ check result w' = true := by
  unfold passes at h
  split at h
  · rename_i result w' hrun
    exact ⟨result, w', hrun, h⟩
  · cases h

/-- All functions of a table are fit. -/
def FitTable (fit : Fitness K B) (table : HostTable (HostBody K B)) : Prop :=
  ∀ f ∈ table.functions, ∀ args, fit _ (f.body args)

/-- What is to be shown of an invariant for programs and for what requests and frames do by
themselves: fit programs keep it where requests are performed as they should be, and so does each
elementary change that leaves components alone. -/
structure Steady {C : Type} (fit : Fitness K B) (served : Performer K B → Prop)
    (I : C → World K B → Prop) : Prop where
  program : ∀ {perform}, served perform → ∀ {R : Type} {p : Program K B R}, fit R p →
    ∀ c, Keeps (I c) (p.run perform)
  record : ∀ {c w} event, event.Aside → I c w → I c (w.record event)
  tick : ∀ {c w} dt, I c w → I c { w with clock := w.clock.map fun clock => clock.tick dt }
  dequeue : ∀ {c w}, I c w → I c { w with commands := some [] }
  place : ∀ {c w} e placement, I c w → I c (w.place e placement)
  destroy : ∀ {c w} e, I c w → I c (w.destroy e)
  reclaim : ∀ {c w} e, I c w → I c (w.reclaim e)
  table : ∀ {c w scheduler}, I c w → w.scheduler = some scheduler → FitTable fit scheduler.table
  lend : ∀ {c w}, I c w → I c { w with scheduler := none }
  restore : ∀ {c w scheduler}, FitTable fit scheduler.table → I c w →
    I c { w with scheduler := some scheduler }

/-- What is to be shown of responses: an invariant is kept by observers, by the hooks that are sent
in an update, and by switching actors and components, which sets off hooks. -/
structure Responds {C : Type} (I : C → World K B → Prop)
    (respond : Impulse K → SceneM K B Unit) : Prop where
  event : ∀ event c, Keeps (I c) (respond (.event event))
  visit : ∀ e hook, hook.Updates → ∀ indices c,
    Keeps (I c) (SceneM.dispatchWhileActive respond e hook indices)
  setActive : ∀ e active c, Keeps (I c) (SceneM.setActive respond e active)
  setEnabled : ∀ e kind enabled c, Keeps (I c) (SceneM.setEnabled respond e kind enabled)

/-! ## Requests, where responses keep the invariant -/

namespace Steady

variable {C : Type} {fit : Fitness K B} {served : Performer K B → Prop}
  {I : C → World K B → Prop} (steady : Steady fit served I)
  {respond : Impulse K → SceneM K B Unit}

omit [Scalar K] in
/-- Telling the observers keeps the invariant if the note and the observers do. -/
theorem emit {event : ActorEvent K} {c : C}
    (record : ∀ w, I c w → I c (w.record (.actor event)))
    (observed : Keeps (I c) (respond (.event event))) : Keeps (I c) (SceneM.emit respond event) :=
  keeps_bind (keeps_modify record) fun _ => observed

section Responses

variable (responses : ∀ impulse c, Keeps (I c) (respond impulse))

omit [Scalar K] in
include responses in
/-- Sending a hook to a component keeps the invariant if all responses do. -/
theorem dispatch (e : EntityId) (hook : Hook K) (index : Nat) (c : C) :
    Keeps (I c) (SceneM.dispatch respond e hook index) := by
  unfold SceneM.dispatch
  refine keeps_getBind fun w hw => ?_
  split
  · exact responses _ c
  · exact keeps_pure _

omit [Scalar K] in
include responses in
/-- Sending a hook to the components of an actor, as long as it is active, keeps the invariant. -/
theorem dispatchWhileActive (e : EntityId) (hook : Hook K) (indices : List Nat) (c : C) :
    Keeps (I c) (SceneM.dispatchWhileActive respond e hook indices) := by
  induction indices with
  | nil => exact keeps_pure _
  | cons index rest ih =>
    unfold SceneM.dispatchWhileActive
    refine keeps_getBind fun w hw => ?_
    split
    · exact keeps_bind (dispatch responses e hook index c) fun _ => ih
    · exact keeps_pure _

end Responses

omit [Scalar K] in
/-- Looking up the places of components keeps the invariant. -/
theorem places (e : EntityId) (c : C) : Keeps (I c) (SceneM.places (K := K) (B := B) e) :=
  keeps_getBind fun _ _ => keeps_pure _

/-- Looking up how much time has gone by for an actor keeps the invariant. -/
theorem ownDelta (e : EntityId) (dt : K) (c : C) :
    Keeps (I c) (SceneM.ownDelta (B := B) e dt) :=
  keeps_getBind fun _ _ => keeps_pure _

/-- Looking up how much time has gone by for the scene keeps the invariant. -/
theorem frameDelta (c : C) : Keeps (I c) (SceneM.frameDelta (K := K) (B := B)) := by
  unfold SceneM.frameDelta
  refine keeps_getBind fun w hw => ?_
  split
  · exact keeps_pure _
  · exact keeps_pure _

variable (responds : Responds I respond)

include steady responds in
/-- The update of an actor keeps the invariant. -/
theorem updateActor (e : EntityId) (dt : K) (c : C) :
    Keeps (I c) (SceneM.updateActor respond e dt) := by
  unfold SceneM.updateActor
  refine keeps_bind (ownDelta e dt c) fun own => ?_
  cases own with
  | none => exact keeps_pure _
  | some dt =>
    refine keeps_bind (emit (fun _ => steady.record _ trivial) (responds.event _ c)) fun _ => ?_
    exact keeps_bind (places e c) fun _ => responds.visit e (.update _) trivial _ c

include responds in
/-- The late update of an actor keeps the invariant. -/
theorem lateUpdateActor (e : EntityId) (dt : K) (c : C) :
    Keeps (I c) (SceneM.lateUpdateActor respond e dt) := by
  unfold SceneM.lateUpdateActor
  refine keeps_bind (ownDelta e dt c) fun own => ?_
  cases own with
  | none => exact keeps_pure _
  | some dt =>
    exact keeps_bind (places e c) fun _ => responds.visit e (.lateUpdate _) trivial _ c

include steady responds in
/-- Applying a command keeps the invariant. -/
theorem applyCommand (command : Command K) (c : C) :
    Keeps (I c) (SceneM.applyCommand respond command) := by
  have onTarget : ∀ name (act : EntityId → SceneM K B Unit), (∀ e, Keeps (I c) (act e)) →
      Keeps (I c) (SceneM.onTarget command.target name act) := by
    intro name act hact
    unfold SceneM.onTarget
    split
    · exact hact _
    · exact keeps_modify fun _ => steady.record _ trivial
  have place : ∀ (placement : Placement K) (e : EntityId),
      Keeps (I c) (modify fun w => w.place e placement : SceneM K B Unit) :=
    fun placement e => keeps_modify fun _ hs => steady.place e placement hs
  unfold SceneM.applyCommand
  dsimp only
  cases command.action with
  | setPosition v => exact onTarget _ _ (place (.position v))
  | setRotation q => exact onTarget _ _ (place (.rotation q))
  | setScale v => exact onTarget _ _ (place (.scale v))
  | setActive active =>
    cases command.target with
    | some e => exact responds.setActive e active c
    | none => exact keeps_pure _
  | destroy =>
    cases command.target with
    | some e => exact keeps_modify fun _ hs => steady.destroy e hs
    | none => exact keeps_pure _

include steady responds in
/-- Applying all commands that wait keeps the invariant. -/
theorem applyCommands (c : C) : Keeps (I c) (SceneM.applyCommands respond) := by
  unfold SceneM.applyCommands
  refine keeps_getBind fun w hw => ?_
  split
  · exact keeps_pure _
  · refine keeps_bind (keeps_modify fun _ hs => steady.dequeue hs) fun _ => ?_
    exact keeps_forM fun command _ => steady.applyCommand responds command c

include steady responds in
/-- The pass of updates keeps the invariant. -/
theorem updateActors (c : C) : Keeps (I c) (SceneM.updateActors respond) := by
  unfold SceneM.updateActors
  refine keeps_bind (frameDelta c) fun dt => ?_
  refine keeps_getBind fun w hw => ?_
  exact keeps_forM fun e _ => steady.updateActor responds e dt c

include responds in
/-- The pass of late updates keeps the invariant. -/
theorem lateUpdateActors (c : C) : Keeps (I c) (SceneM.lateUpdateActors respond) := by
  unfold SceneM.lateUpdateActors
  refine keeps_bind (frameDelta c) fun dt => ?_
  refine keeps_getBind fun w hw => ?_
  exact keeps_forM fun e _ => lateUpdateActor responds e dt c

include steady responds in
/-- The sweep keeps the invariant. -/
theorem sweep (c : C) : Keeps (I c) (SceneM.sweep respond) := by
  unfold SceneM.sweep
  refine keeps_getBind fun w hw => ?_
  refine keeps_forM fun doomed _ => ?_
  exact keeps_bind (emit (fun _ => steady.record _ trivial) (responds.event _ c)) fun _ =>
    keeps_modify fun _ hs => steady.reclaim _ hs

include steady in
/-- What is done with the scheduler out of the scene keeps the invariant if its work does. -/
theorem withScheduler {α : Type} {absent : α}
    {work : Scheduler (HostBody K B) → SceneM K B (α × Scheduler (HostBody K B))} (c : C)
    (works : ∀ scheduler, FitTable fit scheduler.table →
      Ensures (I c) (work scheduler) fun r w => r.2.table = scheduler.table ∧ I c w) :
    Keeps (I c) (SceneM.withScheduler absent work) := by
  unfold SceneM.withScheduler
  refine keeps_getBind fun w hw => ?_
  split
  · exact keeps_pure _
  · rename_i scheduler hscheduler
    have fitting := steady.table hw hscheduler
    refine keeps_bind (keeps_modify fun _ hs => steady.lend hs) fun _ => ?_
    refine ensures_bind (works scheduler fitting) fun r => ?_
    refine ensures_bind (Q := fun _ => I c) (ensures_modify fun v hv => ?_) fun _ =>
      keeps_pure _
    exact steady.restore (hv.1 ▸ fitting) hv.2

variable [Behavior K B]

include steady responds in
/-- Requests other than running threads. -/
theorem serves_performWithin : Serves I (SceneM.performWithin respond) where
  ask _ := rfl
  edit _ := rfl
  compound request hcompound c := by
    cases request with
    | ask | edit => exact absurd hcompound id
    | setActive e active => exact responds.setActive e active c
    | setEnabled e kind enabled => exact responds.setEnabled e kind enabled c
    | updateActor e dt => exact steady.updateActor responds e dt c
    | lateUpdateActor e dt => exact lateUpdateActor responds e dt c
    | applyCommands => exact steady.applyCommands responds c
    | runThreads => exact keeps_pure _
    | updateActors => exact steady.updateActors responds c
    | lateUpdateActors => exact lateUpdateActors responds c
    | sweep => exact steady.sweep responds c

include steady in
/-- What threads do by calling host functions keeps the invariant. -/
theorem hostCall (within : served (SceneM.performWithin respond))
    {table : HostTable (HostBody K B)} (fitting : FitTable fit table) (c : C) :
    ∀ f ∈ table.functions, ∀ args, Keeps (I c) ((SceneM.host respond).call f.body args) :=
  fun f hf args => steady.program within (fitting f hf args) c

include steady responds in
/-- Requests keep the invariant, those included that run threads. -/
theorem serves_performWith (within : served (SceneM.performWithin respond)) :
    Serves I (SceneM.performWith respond) where
  ask _ := rfl
  edit _ := rfl
  compound request hcompound c := by
    have others := (steady.serves_performWithin responds).compound request hcompound c
    cases request with
    | runThreads =>
      refine steady.withScheduler c fun scheduler fitting => ?_
      have updated : Ensures (I c) (scheduler.update (SceneM.host respond))
          fun s' w => s'.table = scheduler.table ∧ I c w :=
        ensures_update (steady.hostCall within fitting c) fun _ _ => steady.record _ trivial
      exact ensures_bind updated fun _ => ensures_pure fun _ hs => hs
    | _ => exact others

end Steady

variable [Behavior K B]

/-! ## Everything that can happen to a scene -/

/-- What can happen to a scene while no component is executing: a fit program runs, a frame goes
by, a thread is started, a function is evaluated, or a scheduler with fit host functions is put in
place. -/
inductive SceneStep (fit : Fitness K B) : World K B → World K B → Prop where
  | program {w w' R} {p : Program K B R} {result} : fit R p →
      p.run SceneM.perform w = .ok result w' → SceneStep fit w w'
  | frame {w w' dt} : SceneM.frame dt w = .ok () w' → SceneStep fit w w'
  | startThread {w w' script function answer} :
      SceneM.startThread script function w = .ok answer w' → SceneStep fit w w'
  | evaluate {w w' script function answer} :
      SceneM.evaluate script function w = .ok answer w' → SceneStep fit w w'
  | install {w scheduler} : FitTable fit scheduler.table →
      SceneStep fit w { w with scheduler := some scheduler }

/-- The scenes that come about from an empty one. -/
inductive Reachable (fit : Fitness K B) : World K B → Prop where
  | empty {w} : w.entities = #[] → w.actors = [] → w.waits = .none → w.scheduler = none →
      Reachable fit w
  | step {w w'} : Reachable fit w → SceneStep fit w w' → Reachable fit w'

/-- What is to be shown of an invariant in all, so that nothing that can happen to a scene breaks
it. -/
structure Lasting {C : Type} (fit : Fitness K B) (served : Performer K B → Prop)
    (I : C → World K B → Prop) : Prop where
  steady : Steady fit served I
  responds : Responds I (SceneM.respond SceneM.hookLimit)
  within : served (SceneM.performWithin (SceneM.respond SceneM.hookLimit))
  perform : served SceneM.perform

namespace Lasting

variable {C : Type} {fit : Fitness K B} {served : Performer K B → Prop}
  {I : C → World K B → Prop} (lasting : Lasting fit served I)
include lasting

/-- The requests of the whole scene keep what lasts. -/
theorem serves_perform : Serves I SceneM.perform :=
  lasting.steady.serves_performWith lasting.responds lasting.within

/-- A frame keeps what lasts. -/
theorem frame (dt : K) (c : C) : Keeps (I c) (SceneM.frame dt) := by
  have compound := lasting.serves_perform.compound
  have ticked : Keeps (I c) (SceneM.perform (.edit (.tick dt)) : SceneM K B Unit) := by
    rw [lasting.serves_perform.edit]
    exact ensures_modifyGet fun _ hs => lasting.steady.tick dt hs
  refine keeps_bind ticked fun _ => ?_
  refine keeps_bind (compound .applyCommands trivial c) fun _ => ?_
  refine keeps_bind (compound .runThreads trivial c) fun _ => ?_
  refine keeps_bind (compound .updateActors trivial c) fun _ => ?_
  refine keeps_bind (compound .lateUpdateActors trivial c) fun _ => ?_
  exact compound .sweep trivial c

/-- Starting a thread keeps what lasts. -/
theorem startThread (script : Script) (function : String) (c : C) :
    Keeps (I c) (SceneM.startThread script function) := by
  have steady := lasting.steady
  refine steady.withScheduler c fun scheduler fitting => ?_
  have started : Ensures (I c)
      (scheduler.start (SceneM.host (SceneM.respond SceneM.hookLimit)) script function)
      fun r w => r.2.table = scheduler.table ∧ I c w :=
    ensures_start (steady.hostCall lasting.within fitting c) (fun _ _ => steady.record _ trivial)
      script function
  exact ensures_bind started fun _ => ensures_pure fun _ hs => hs

/-- Evaluating a function keeps what lasts. -/
theorem evaluate (script : Script) (function : String) (c : C) :
    Keeps (I c) (SceneM.evaluate script function) := by
  have steady := lasting.steady
  refine steady.withScheduler c fun scheduler fitting => ?_
  have evaluated : Keeps (I c)
      (scheduler.evaluate (SceneM.host (SceneM.respond SceneM.hookLimit)) script function) :=
    keeps_evaluate (steady.hostCall lasting.within fitting c) (fun _ _ => steady.record _ trivial)
      script function
  exact ensures_bind evaluated fun _ => ensures_pure fun _ hs => ⟨rfl, hs⟩

/-- A step of the scene keeps what lasts. -/
theorem step {w w' : World K B} {c : C} (step : SceneStep fit w w') (h : I c w) : I c w' := by
  cases step with
  | program hfit hrun => exact lasting.steady.program lasting.perform hfit c _ h _ _ hrun
  | frame hrun => exact lasting.frame _ c _ h _ _ hrun
  | startThread hrun => exact lasting.startThread _ _ c _ h _ _ hrun
  | evaluate hrun => exact lasting.evaluate _ _ c _ h _ _ hrun
  | install hfit => exact lasting.steady.restore hfit h

/-- What lasts holds in every scene that comes about from one where it holds. -/
theorem reachable {w : World K B} {c : C}
    (empty : ∀ w : World K B, w.entities = #[] → w.actors = [] → w.waits = .none →
      w.scheduler = none → I c w) (h : Reachable fit w) : I c w := by
  induction h with
  | empty hentities hactors hwaits hscheduler => exact empty _ hentities hactors hwaits hscheduler
  | step _ hstep ih => exact lasting.step hstep ih

end Lasting

/-! ## Invariants of the components that are out -/

/-- What is to be shown of an invariant that speaks of the components that are out: fit programs
keep it, and so does each elementary change by which requests, frames and hooks are carried out. -/
structure Kept (fit : Fitness K B) (I : List (Executing K B) → World K B → Prop) : Prop
    extends Steady fit (Serves I) I where
  react : ∀ {perform}, Serves I perform → ∀ e index component hook out,
    Ensures (I (⟨e, index, component⟩ :: out)) ((component.react e hook).run perform)
      fun component w => I (⟨e, index, component⟩ :: out) w
  observe : ∀ event, fit Unit (Behavior.observe event)
  note : ∀ {out w} event, I out w → I out (w.record event)
  switch : ∀ {out w} e state, I out w → I out (w.modifyActor e fun a => { a with state })
  enable : ∀ {out w} e index enabled, I out w →
    I out (w.modifySlot e index fun slot => { slot with enabled })
  putOff : ∀ {out w} e index (f : List (Hook K) → List (Hook K)), I out w →
    I out (w.modifySlot e index fun slot => { slot with deferred := f slot.deferred })
  take : ∀ {out w e index slot component}, w.slot? e index = some slot →
    slot.component = some component → I out w →
    I (⟨e, index, component⟩ :: out)
      (w.modifySlot e index fun slot => { slot with component := none })
  put : ∀ {out w e index slot component}, w.slot? e index = some slot →
    I (⟨e, index, component⟩ :: out) w →
    I out (w.modifySlot e index fun slot => { slot with component := some component })
  drop : ∀ {out w e index component}, w.slot? e index = none →
    I (⟨e, index, component⟩ :: out) w → I out (w.dropComponent component)

namespace Kept

variable {fit : Fitness K B} {I : List (Executing K B) → World K B → Prop} (kept : Kept fit I)
include kept

section Switching

variable {respond : Impulse K → SceneM K B Unit}
  (responses : ∀ impulse out, Keeps (I out) (respond impulse))
include responses

/-- Switching an actor keeps the invariant if all responses do. -/
theorem setActive (e : EntityId) (active : Bool) (out : List (Executing K B)) :
    Keeps (I out) (SceneM.setActive respond e active) := by
  unfold SceneM.setActive
  refine keeps_getBind fun w hw => ?_
  split
  · exact keeps_pure _
  · refine keeps_bind (keeps_modify fun _ hs => kept.switch e _ hs) fun _ => ?_
    refine keeps_bind (Steady.emit (fun _ => kept.note _) (responses _ out)) fun _ => ?_
    refine keeps_bind (Steady.places e out) fun indices => ?_
    exact keeps_forM fun index _ => Steady.dispatch responses e _ index out

/-- Switching a component keeps the invariant if all responses do. -/
theorem setEnabled (e : EntityId) (kind : ComponentKind) (enabled : Bool)
    (out : List (Executing K B)) : Keeps (I out) (SceneM.setEnabled respond e kind enabled) := by
  unfold SceneM.setEnabled
  refine keeps_getBind fun w hw => ?_
  dsimp only
  split
  · exact keeps_pure _
  · exact keeps_bind (keeps_modify fun _ hs => kept.enable e _ enabled hs) fun _ =>
      responses _ out

/-- Responses that keep the invariant do all that is to be shown of them. -/
theorem responds : Responds I respond where
  event event := responses (.event event)
  visit e hook _ indices out := Steady.dispatchWhileActive responses e hook indices out
  setActive := kept.setActive responses
  setEnabled := kept.setEnabled responses

/-- Requests performed within such responses keep the invariant. -/
theorem serves_performWithin : Serves I (SceneM.performWithin respond) :=
  kept.toSteady.serves_performWithin (kept.responds responses)

/-- Requests performed with such responses keep the invariant. -/
theorem serves_performWith : Serves I (SceneM.performWith respond) :=
  kept.toSteady.serves_performWith (kept.responds responses) (kept.serves_performWithin responses)

end Switching

/-- A component that serves a hook, and the hooks that were put off meanwhile, keeps the invariant
and is back in the end. -/
theorem serve {perform : (request : Request K B) → SceneM K B request.Answer}
    (serves : Serves I perform) (rounds : Nat) (e : EntityId) (index : Nat)
    (component : Component K B) (hook : Hook K) (out : List (Executing K B)) :
    Ensures (I (⟨e, index, component⟩ :: out))
      (SceneM.serve perform rounds e index component hook) fun _ => I out := by
  induction rounds generalizing component hook with
  | zero => exact ensures_throw _
  | succ rounds ih =>
    refine ensures_bind (keeps_modify fun _ => kept.note _) fun _ => ?_
    refine ensures_bind (kept.react serves e index component hook out) fun component => ?_
    refine ensures_bind (keeps_modify fun _ => kept.note _) fun _ => ?_
    refine ensures_getBind fun w hw => ?_
    split
    · rename_i hslot
      exact ensures_modify fun _ hs => hs ▸ kept.drop hslot hw
    · rename_i slot hslot
      split
      · exact ensures_modify fun _ hs => hs ▸ kept.put hslot hw
      · rename_i next deferred _
        refine ensures_bind (Q := fun _ => I (⟨e, index, component⟩ :: out))
          (ensures_modify fun _ hs => hs ▸ kept.putOff e index (fun _ => deferred) hw) fun _ => ?_
        exact ih component next

/-- Whatever an impulse sets off, to any depth, keeps the invariant. -/
theorem respond (depth : Nat) (impulse : Impulse K) (out : List (Executing K B)) :
    Keeps (I out) (SceneM.respond depth impulse) := by
  induction depth generalizing impulse out with
  | zero => exact ensures_throw _
  | succ depth ih =>
    have serves := kept.serves_performWith ih
    unfold SceneM.respond
    cases impulse with
    | event event => exact kept.program serves (kept.observe event) out
    | hook e index hook =>
      refine ensures_getBind fun w hw => ?_
      split
      · exact ensures_at hw (keeps_pure _)
      · rename_i slot hslot
        split
        · refine ensures_modify fun _ hs => hs ▸ kept.note _ ?_
          exact kept.putOff e index (· ++ [hook]) hw
        · rename_i component hcomponent
          refine ensures_bind (Q := fun _ => I (⟨e, index, component⟩ :: out))
            (ensures_modify fun _ hs => hs ▸ kept.take hslot hcomponent hw) fun _ => ?_
          exact kept.serve serves SceneM.hookLimit e index component hook out

/-- The requests of the whole scene keep the invariant. -/
theorem serves_perform : Serves I SceneM.perform :=
  kept.serves_performWith (kept.respond SceneM.hookLimit)

/-- What is kept lasts. -/
theorem lasting : Lasting fit (Serves I) I where
  steady := kept.toSteady
  responds := kept.responds (kept.respond SceneM.hookLimit)
  within := kept.serves_performWithin (kept.respond SceneM.hookLimit)
  perform := kept.serves_perform

end Kept

section Reachable

variable {fit : Fitness K B} {I : List (Executing K B) → World K B → Prop} {w w' : World K B}

/-- A step of the scene keeps the invariant. -/
theorem SceneStep.keeps (kept : Kept fit I) (step : SceneStep fit w w') (h : I [] w) : I [] w' :=
  kept.lasting.step step h

/-- What is kept holds in every scene that comes about from one where it holds. -/
theorem Reachable.keeps (kept : Kept fit I)
    (empty : ∀ w : World K B, w.entities = #[] → w.actors = [] → w.waits = .none →
      w.scheduler = none → I [] w) (h : Reachable fit w) : I [] w :=
  kept.lasting.reachable empty h

end Reachable

end SheepScene
