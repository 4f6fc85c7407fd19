import SheepScene.Proofs.Scene.Relinking
import SheepScene.Scene.Perform

/-!
# What the journal notes

The journal of a scene has, among other things, the stages of all hooks: when a component begins to
act on one, when it comes to an end, and which hooks are put off. What it notes of one kind of event
is given by a view of events (`World.noted`). Edits write remarks only, and removing an actor writes
nothing (`World.noted_apply`, `World.noted_reclaim`), so only sending hooks to components writes
stages.
-/

set_option autoImplicit false

namespace SheepScene

variable {K B : Type}

/-- A stage of a hook on the component at a place of an actor. -/
structure Stage (K : Type) where
  actor : EntityId
  index : Nat
  stage : HookStage
  hook : Hook K

/-- The stage that an event of the journal is. -/
def Event.stage? : Event K B → Option (Stage K)
  | .hook e i stage h => some ⟨e, i, stage, h⟩
  | _ => none

/-- Messages, and what probes have to say. -/
def Event.Remark : Event K B → Prop
  | .sceneLog .. | .scriptLog .. | .note _ | .probed .. => True
  | _ => False

namespace World

/-- What the journal has of the events that a view shows, oldest first. -/
def noted {α : Type} (view : Event K B → Option α) (w : World K B) : List α :=
  w.journal.toList.filterMap view

section Noted

variable {α : Type} {view : Event K B → Option α}

/-- An event that is written into the journal comes last. -/
theorem noted_record (w : World K B) (event : Event K B) :
    (w.record event).noted view = w.noted view ++ (view event).toList := by
  unfold noted record
  rw [Array.toList_push, List.filterMap_append]
  cases h : view event <;> simp [h]

/-- Other events are not shown. -/
theorem noted_record_aside (w : World K B) {event : Event K B} (aside : view event = none) :
    (w.record event).noted view = w.noted view := by
  rw [noted_record, aside, Option.toList_none, List.append_nil]

/-- Changing an entity writes nothing. -/
theorem noted_modifyEntity (w : World K B) (e : EntityId) (f : Entity K B → Entity K B) :
    (w.modifyEntity e f).noted view = w.noted view :=
  rfl

/-- Many rounds write nothing if no round does. -/
theorem noted_foldl {β : Type} {f : World K B → β → World K B}
    (round : ∀ w b, (f w b).noted view = w.noted view) (l : List β) (w : World K B) :
    (l.foldl f w).noted view = w.noted view := by
  induction l generalizing w with
  | nil => rfl
  | cons b l ih => exact (ih (f w b)).trans (round w b)

/-- Telling a subtree that it is stale writes nothing. -/
theorem noted_invalidate (w : World K B) (e : EntityId) :
    (w.invalidate e).noted view = w.noted view :=
  noted_foldl (fun w e => noted_modifyEntity w e _) _ w

/-- Dropping a component writes nothing. -/
theorem noted_dropComponent (w : World K B) (c : Component K B) :
    (w.dropComponent c).noted view = w.noted view := by
  unfold dropComponent
  split <;> rfl

/-- Despawning writes nothing. -/
theorem noted_despawn (w : World K B) (e : EntityId) :
    (w.despawn e).2.noted view = w.noted view := by
  unfold despawn
  split
  · rfl
  · exact noted_foldl noted_dropComponent _ _

/-- Detaching an entity writes nothing. -/
theorem noted_detach (w : World K B) (e : EntityId) : (w.detach e).noted view = w.noted view := by
  have cut : (w.cut e).noted view = w.noted view := by
    unfold cut World.leave
    split <;> rfl
  exact (noted_foldl (fun w e => noted_invalidate (w.linkUp e none) e) _ _).trans cut

/-- Reclaiming an entity writes nothing. -/
theorem noted_reclaim (w : World K B) (e : EntityId) : (w.reclaim e).noted view = w.noted view :=
  (noted_despawn _ e).trans (noted_detach w e)

/-- Marking as destroyed writes nothing. -/
theorem noted_destroy (w : World K B) (e : EntityId) : (w.destroy e).noted view = w.noted view :=
  noted_foldl (fun w e => noted_modifyEntity w e _) _ w

section Places

variable [Scalar K]

/-- Climbing for a matrix writes nothing. -/
theorem noted_localToWorldFrom (steps : Nat) (w : World K B) (e : EntityId) :
    (localToWorldFrom steps w e).2.noted view = w.noted view := by
  have laid : (w.applyLayout e).noted view = w.noted view := by
    unfold applyLayout
    split <;> rfl
  induction steps generalizing w e with
  | zero =>
    unfold localToWorldFrom
    split
    · rfl
    · rename_i t _
      split
      · rfl
      · cases t.parent <;> exact laid
  | succ steps ih =>
    unfold localToWorldFrom
    split
    · rfl
    · rename_i t _
      split
      · rfl
      · cases t.parent with
        | none => exact laid
        | some parent =>
          refine (ih _ parent ?_).trans laid
          unfold applyLayout
          split <;> rfl

/-- Asking for a world matrix writes nothing. -/
theorem noted_localToWorld (w : World K B) (e : EntityId) :
    (w.localToWorld e).2.noted view = w.noted view :=
  noted_localToWorldFrom _ w e

/-- Asking for an inverse writes nothing. -/
theorem noted_worldToLocal (w : World K B) (e : EntityId) :
    (w.worldToLocal e).2.noted view = w.noted view := by
  have known : (w.localToWorld e).2.noted view = w.noted view := noted_localToWorld w e
  unfold worldToLocal
  split
  · rfl
  · split
    · rename_i heq
      rwa [heq] at known
    · rename_i heq
      rwa [heq] at known

/-- Asking for a world rectangle writes nothing. -/
theorem noted_worldRect (w : World K B) (e : EntityId) :
    (w.worldRect e).2.noted view = w.noted view := by
  unfold worldRect
  split
  · rfl
  · rename_i rect _
    have low : (w.localToWorldPoint e (rect.low.lift 0)).2.noted view = w.noted view :=
      noted_localToWorld w e
    split
    · rename_i heq
      rwa [heq] at low
    · rename_i w' heq
      rw [heq] at low
      have high : (w'.localToWorldPoint e (rect.high.lift 0)).2.noted view = w'.noted view :=
        noted_localToWorld w' e
      split
      · rename_i heq
        rw [heq] at high
        exact high.trans low
      · rename_i heq
        rw [heq] at high
        exact high.trans low

/-- Asking for a snapshot writes nothing. -/
theorem noted_snapshot (w : World K B) : w.snapshot.2.noted view = w.noted view := by
  have row : ∀ (w : World K B) e, (w.row e).2.noted view = w.noted view := by
    intro w e
    unfold World.row
    split
    · rfl
    · dsimp only
      split
      · rfl
      · exact noted_localToWorld w e
  have rows : ∀ (f : List (Option (EntityRow K)) × World K B → EntityId →
      List (Option (EntityRow K)) × World K B),
      (∀ s e, (f s e).2.noted view = s.2.noted view) →
      ∀ (l : List EntityId) s, (l.foldl f s).2.noted view = s.2.noted view := by
    intro f hf l
    induction l with
    | nil => exact fun s => rfl
    | cons e l ih => exact fun s => (ih (f s e)).trans (hf s e)
  exact rows _ (fun s e => row s.2 e) _ ([], w)

end Places

/-! ## Edits write remarks only -/

variable (ignored : ∀ event : Event K B, event.Remark → view event = none)
include ignored

/-- Warnings are not shown where remarks are not. -/
theorem noted_warn (w : World K B) (text : String) : (w.warn text).noted view = w.noted view :=
  noted_record_aside w (ignored _ trivial)

/-- Placing an entity writes remarks at most. -/
theorem noted_place (w : World K B) (e : EntityId) (placement : Placement K) :
    (w.place e placement).noted view = w.noted view := by
  unfold place
  split
  · exact noted_invalidate _ e
  · exact noted_warn ignored w _

/-- Reparenting writes remarks at most. -/
theorem noted_setParent (w : World K B) (e : EntityId) (parent : Option EntityId) :
    (w.setParent e parent).2.noted view = w.noted view := by
  have leave : (w.leave e).noted view = w.noted view := by
    unfold World.leave
    split <;> rfl
  unfold setParent
  split
  · exact noted_warn ignored w _
  · rw [noted_invalidate]
    cases parent <;> exact leave

/-- Spawning writes remarks at most. -/
theorem noted_spawn (w : World K B) (spec : ActorSpec K) :
    (w.spawn spec).2.noted view = w.noted view := by
  unfold spawn
  dsimp only
  split
  · exact noted_setParent ignored _ _ _
  · rfl

variable [Scalar K]

/-- Placing an entity in the world writes remarks at most. -/
theorem noted_placeInWorld (w : World K B) (e : EntityId) (placement : Placement K) :
    (w.placeInWorld e placement).noted view = w.noted view := by
  unfold placeInWorld
  split
  · exact noted_warn ignored w _
  · split
    · exact noted_place ignored w e placement
    · rename_i parent _
      refine (noted_place ignored _ e _).trans ?_
      cases placement with
      | position v => exact noted_worldToLocal w parent
      | rotation q => rfl
      | scale v => rfl

/-- Turning an entity writes remarks at most. -/
theorem noted_rotate (w : World K B) (e : EntityId) (rotation : Quat K) (space : Space) :
    (w.rotate e rotation space).noted view = w.noted view := by
  unfold rotate
  split
  · split
    · exact noted_place ignored w e _
    · rfl
  · split
    · exact noted_placeInWorld ignored w e _
    · rfl

/-- Moving an entity writes remarks at most. -/
theorem noted_translate (w : World K B) (e : EntityId) (offset : Vec3 K) (space : Space) :
    (w.translate e offset space).noted view = w.noted view := by
  have known : (w.worldPosition e).2.noted view = w.noted view := noted_localToWorld w e
  unfold translate
  split
  · split
    · exact noted_place ignored w e _
    · rfl
  · split
    · rename_i heq
      rw [heq] at known
      exact (noted_placeInWorld ignored _ e _).trans known
    · rename_i heq
      rwa [heq] at known

/-- Turning an entity around a point writes remarks at most. -/
theorem noted_rotateAround (w : World K B) (e : EntityId) (point : Vec3 K) (rotation : Quat K) :
    (w.rotateAround e point rotation).noted view = w.noted view := by
  have known : (w.worldPosition e).2.noted view = w.noted view := noted_localToWorld w e
  unfold rotateAround
  split
  · rename_i heq
    rwa [heq] at known
  · rename_i heq
    rw [heq] at known
    exact ((noted_rotate ignored _ e _ _).trans (noted_placeInWorld ignored _ e _)).trans known

/-- No edit writes anything but remarks. -/
theorem noted_apply [Behavior K B] (w : World K B) (x : Edit K B) :
    (w.apply x).2.noted view = w.noted view := by
  cases x with
  | spawn spec => exact noted_spawn ignored w spec
  | despawn e => exact noted_despawn w e
  | destroy e => exact noted_destroy w e
  | add e component =>
    change (w.addComponent e component).2.noted view = w.noted view
    unfold addComponent
    split
    · rfl
    · exact (noted_dropComponent _ component).trans (noted_warn ignored w _)
  | retarget e target duration done =>
    change (w.retarget e target duration done).2.noted view = w.noted view
    unfold retarget
    split
    · rfl
    · split
      · dsimp only
        split <;> rfl
      · rfl
  | place e placement => exact noted_place ignored w e placement
  | placeInWorld e placement => exact noted_placeInWorld ignored w e placement
  | worldPosition e | localToWorld e | localToWorldPoint e v => exact noted_localToWorld w e
  | worldToLocal e | worldToLocalPoint e v => exact noted_worldToLocal w e
  | setParent e parent => exact noted_setParent ignored w e parent
  | removeChild parent e =>
    change (w.removeChild parent e).noted view = w.noted view
    unfold removeChild
    split
    · exact noted_setParent ignored w e none
    · rfl
  | translate e offset space => exact noted_translate ignored w e offset space
  | rotate e rotation space => exact noted_rotate ignored w e rotation space
  | rotateAround e point rotation => exact noted_rotateAround ignored w e point rotation
  | invalidate e => exact noted_invalidate w e
  | changeAnchoring e change =>
    change (w.changeAnchoring e change).noted view = w.noted view
    unfold changeAnchoring
    split
    · exact noted_invalidate _ e
    · exact noted_warn ignored w _
  | worldRect e | rectContains e point => exact noted_worldRect w e
  | setViewport viewport =>
    exact noted_foldl noted_invalidate _ { w with viewport := some viewport }
  | send e action =>
    change (w.send e action).2.noted view = w.noted view
    unfold send
    split <;> rfl
  | snapshot => exact noted_snapshot w
  | log level text => exact noted_record_aside w (ignored _ trivial)
  | note text => exact noted_record_aside w (ignored _ trivial)
  | probed tag hook => exact noted_record_aside w (ignored _ trivial)
  | _ => rfl

end Noted

/-- The stages of hooks that the journal has, oldest first. -/
def stages (w : World K B) : List (Stage K) :=
  w.journal.toList.filterMap Event.stage?

/-- An event adds the stage that it is, if it is one. -/
theorem stages_record (w : World K B) (event : Event K B) :
    (w.record event).stages = w.stages ++ event.stage?.toList :=
  noted_record w event

/-- A stage of a hook comes last. -/
@[simp] theorem stages_record_hook (w : World K B) (e : EntityId) (index : Nat)
    (stage : HookStage) (hook : Hook K) :
    (w.record (.hook e index stage hook)).stages = w.stages ++ [⟨e, index, stage, hook⟩] :=
  stages_record w _

/-- Other events are no stages. -/
theorem stages_record_aside (w : World K B) {event : Event K B} (aside : event.stage? = none) :
    (w.record event).stages = w.stages :=
  noted_record_aside w aside

/-- Dropping a component adds no stage. -/
theorem stages_dropComponent (w : World K B) (c : Component K B) :
    (w.dropComponent c).stages = w.stages :=
  noted_dropComponent w c

/-- Reclaiming an entity adds no stage. -/
theorem stages_reclaim (w : World K B) (e : EntityId) : (w.reclaim e).stages = w.stages :=
  noted_reclaim w e

/-- No edit writes a stage of a hook. -/
theorem stages_apply [Scalar K] [Behavior K B] (w : World K B) (x : Edit K B) :
    (w.apply x).2.stages = w.stages := by
  refine noted_apply (fun event remark => ?_) w x
  cases event with
  | hook => exact absurd remark id
  | _ => rfl

end World

end SheepScene
