import SheepScene.Proofs.Machine.Refinement
import SheepScene.Proofs.Scene.Keeping

/-!
# Watched runs

To say that something holds all along while hooks are executed, a run is watched: it gives up as
soon as an impulse is sent in a world that does not pass a check (`SceneM.respondWhile`). Without a
check it is the run of the scene (`SceneM.respondWhile_true`), and a watched run that ends well
comes to the same end as the run of the scene (`refines_respondWhile`).
-/

set_option autoImplicit false

namespace SheepScene

variable {K B : Type}

/-! ## Giving up -/

namespace SceneM

variable [Scalar K] [Behavior K B]

/-- What an impulse sets off where it is known how to perform requests. -/
def answer (perform : Performer K B) : Impulse K → SceneM K B Unit
  | .event event => (Behavior.observe event).run perform
  | .hook e index hook => do
    match (← get).slot? e index with
    | none => pure ()
    | some slot => match slot.component with
      | none =>
        modify fun w => (w.modifySlot e index fun slot =>
          { slot with deferred := slot.deferred ++ [hook] }).record (.hook e index .deferred hook)
      | some component =>
        modify fun w => w.modifySlot e index fun slot => { slot with component := none }
        serve perform hookLimit e index component hook

/-- A response with one more level of depth is an answer with the responses of fewer. -/
theorem respond_succ (depth : Nat) (impulse : Impulse K) :
    respond (B := B) (depth + 1) impulse = answer (performWith (respond depth)) impulse := by
  cases impulse <;> rfl

/-- Responds to impulses for as long as a check is passed when one is sent, and gives up
otherwise. -/
def respondWhile (check : World K B → Bool) : Nat → Impulse K → SceneM K B Unit
  | 0, _ => throw .endlessHooks
  | depth + 1, impulse => do
    if check (← get) then answer (performWith (respondWhile check depth)) impulse
    else throw .endlessHooks

/-- A check that is always passed changes nothing. -/
theorem respondWhile_true (depth : Nat) :
    respondWhile (K := K) (B := B) (fun _ => true) depth = respond depth := by
  induction depth with
  | zero => rfl
  | succ depth ih =>
    funext impulse
    rw [respond_succ, respondWhile, ih]
    rfl

end SceneM

/-! ## Refinement -/

/-- Programs whose requests come to the same end do so themselves. -/
theorem refines_run {perform perform' : Performer K B}
    (requests : ∀ request, Refines (perform request) (perform' request)) {R : Type}
    (p : Program K B R) : Refines (p.run perform) (p.run perform') := by
  induction p with
  | done result => exact refines_refl _
  | perform request next ih => exact refines_bind (requests request) ih
  | echo tag request next ih =>
    exact refines_bind (requests request) fun answer => refines_after _ fun _ => ih answer

section Requests

variable {respond respond' : Impulse K → SceneM K B Unit}
  (responses : ∀ impulse, Refines (respond impulse) (respond' impulse))
include responses

/-- Sending a hook is refined if responses are. -/
theorem refines_dispatch (e : EntityId) (hook : Hook K) (index : Nat) :
    Refines (SceneM.dispatch respond e hook index) (SceneM.dispatch respond' e hook index) := by
  refine refines_after _ fun w => ?_
  split
  · exact responses _
  · exact refines_refl _

/-- Sending a hook to the components of an actor, as long as it is active, is refined. -/
theorem refines_dispatchWhileActive (e : EntityId) (hook : Hook K) (indices : List Nat) :
    Refines (SceneM.dispatchWhileActive respond e hook indices)
      (SceneM.dispatchWhileActive respond' e hook indices) := by
  induction indices with
  | nil => exact refines_refl _
  | cons index rest ih =>
    refine refines_after _ fun w => ?_
    split
    · exact refines_bind (refines_dispatch responses e hook index) fun _ => ih
    · exact refines_refl _

/-- Telling the observers is refined. -/
theorem refines_emit (event : ActorEvent K) :
    Refines (SceneM.emit respond event) (SceneM.emit respond' event) :=
  refines_after _ fun _ => responses _

/-- Switching an actor is refined. -/
theorem refines_setActive (e : EntityId) (active : Bool) :
    Refines (SceneM.setActive respond e active) (SceneM.setActive respond' e active) := by
  refine refines_after _ fun w => ?_
  split
  · exact refines_refl _
  · refine refines_after _ fun _ => refines_bind (refines_emit responses _) fun _ => ?_
    exact refines_after _ fun indices => refines_forM (refines_dispatch responses e _) indices

/-- Switching a component is refined. -/
theorem refines_setEnabled (e : EntityId) (kind : ComponentKind) (enabled : Bool) :
    Refines (SceneM.setEnabled respond e kind enabled)
      (SceneM.setEnabled respond' e kind enabled) := by
  refine refines_after _ fun w => ?_
  dsimp only
  split
  · exact refines_refl _
  · exact refines_after _ fun _ => responses _

/-- Applying a command is refined. -/
theorem refines_applyCommand (command : Command K) :
    Refines (SceneM.applyCommand respond command) (SceneM.applyCommand respond' command) := by
  unfold SceneM.applyCommand
  dsimp only
  split
  · exact refines_refl _
  · exact refines_refl _
  · exact refines_refl _
  · split
    · exact refines_setActive responses _ _
    · exact refines_refl _
  · exact refines_refl _

/-- Applying all commands that wait is refined. -/
theorem refines_applyCommands :
    Refines (SceneM.applyCommands respond) (SceneM.applyCommands respond') := by
  refine refines_after _ fun w => ?_
  split
  · exact refines_refl _
  · exact refines_after _ fun _ => refines_forM (refines_applyCommand responses) _

variable [Scalar K]

/-- The update of an actor is refined. -/
theorem refines_updateActor (e : EntityId) (dt : K) :
    Refines (SceneM.updateActor respond e dt) (SceneM.updateActor respond' e dt) := by
  refine refines_after _ fun own => ?_
  cases own with
  | none => exact refines_refl _
  | some dt =>
    refine refines_bind (refines_emit responses _) fun _ => ?_
    exact refines_after _ fun indices => refines_dispatchWhileActive responses e _ indices

/-- The late update of an actor is refined. -/
theorem refines_lateUpdateActor (e : EntityId) (dt : K) :
    Refines (SceneM.lateUpdateActor respond e dt) (SceneM.lateUpdateActor respond' e dt) := by
  refine refines_after _ fun own => ?_
  cases own with
  | none => exact refines_refl _
  | some dt =>
    exact refines_after _ fun indices => refines_dispatchWhileActive responses e _ indices

variable [Behavior K B]

/-- Requests come to the same end where impulses do. -/
theorem refines_performWithin (request : Request K B) :
    Refines (SceneM.performWithin respond request) (SceneM.performWithin respond' request) := by
  cases request with
  | ask | edit | runThreads => exact refines_refl _
  | setActive e active => exact refines_setActive responses e active
  | setEnabled e kind enabled => exact refines_setEnabled responses e kind enabled
  | updateActor e dt => exact refines_updateActor responses e dt
  | lateUpdateActor e dt => exact refines_lateUpdateActor responses e dt
  | applyCommands => exact refines_applyCommands responses
  | updateActors =>
    refine refines_after _ fun dt => refines_after _ fun w => ?_
    exact refines_forM (fun e => refines_updateActor responses e dt) _
  | lateUpdateActors =>
    refine refines_after _ fun dt => refines_after _ fun w => ?_
    exact refines_forM (fun e => refines_lateUpdateActor responses e dt) _
  | sweep =>
    refine refines_after _ fun w => refines_forM (fun doomed => ?_) _
    exact refines_bind (refines_emit responses _) fun _ => refines_refl _

/-- Performing any request is refined if responses are. -/
theorem refines_performWith (request : Request K B) :
    Refines (SceneM.performWith respond request) (SceneM.performWith respond' request) := by
  have others := refines_performWithin responses request
  cases request with
  | runThreads =>
    refine refines_after _ fun w => ?_
    split
    · exact refines_refl _
    · rename_i scheduler _
      refine refines_after _ fun _ => refines_bind ?_ fun _ => refines_refl _
      have calls : ∀ (body : HostBody K B) args, Refines ((SceneM.host respond).call body args)
          ((SceneM.host respond').call body args) := fun body args =>
        refines_run (refines_performWithin responses) (body args)
      exact refines_bind (refines_update calls scheduler) fun _ => refines_refl _
  | _ => exact others

end Requests

variable [Scalar K] [Behavior K B]

/-- A component serves its hooks in the same way if requests are refined. -/
theorem refines_serve {perform perform' : Performer K B}
    (requests : ∀ request, Refines (perform request) (perform' request)) (rounds : Nat)
    (e : EntityId) (index : Nat) (component : Component K B) (hook : Hook K) :
    Refines (SceneM.serve perform rounds e index component hook)
      (SceneM.serve perform' rounds e index component hook) := by
  induction rounds generalizing component hook with
  | zero => exact refines_refl _
  | succ rounds ih =>
    refine refines_after _ fun _ => refines_bind (refines_run requests _) fun component => ?_
    refine refines_after _ fun _ => refines_after _ fun w => ?_
    split
    · exact refines_refl _
    · split
      · exact refines_refl _
      · exact refines_after _ fun _ => ih component _

/-- Impulses are answered in the same way if requests are refined. -/
theorem refines_answer {perform perform' : Performer K B}
    (requests : ∀ request, Refines (perform request) (perform' request)) (impulse : Impulse K) :
    Refines (SceneM.answer perform impulse) (SceneM.answer perform' impulse) := by
  cases impulse with
  | event event => exact refines_run requests _
  | hook e index hook =>
    refine refines_after _ fun w => ?_
    split
    · exact refines_refl _
    · split
      · exact refines_refl _
      · exact refines_after _ fun _ => refines_serve requests _ e index _ hook

/-- A watched run that ends well comes to the end of the run that is not watched. -/
theorem refines_respondWhile (check : World K B → Bool) (depth : Nat) (impulse : Impulse K) :
    Refines (SceneM.respondWhile check depth impulse) (SceneM.respond depth impulse) := by
  induction depth generalizing impulse with
  | zero => exact refines_throw _ _
  | succ depth ih =>
    rw [SceneM.respond_succ]
    intro w r w' hrun
    unfold SceneM.respondWhile at hrun
    obtain ⟨_, _, hget, hrun⟩ := bind_ok hrun
    cases hget
    split at hrun
    · exact refines_answer (refines_performWith ih) impulse w r w' hrun
    · cases hrun

end SheepScene
