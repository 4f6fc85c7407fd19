import SheepScene.Proofs.Scene.Keeping
import SheepScene.Proofs.Scene.Programs
import SheepScene.Proofs.Scene.Relinking

/-!
# Tidy programs

An entity can be dropped behind the back of the tree and of the list of actors. A program is tidy
if it does not do so, and the components and functions that every scene comes with are tidy. An
invariant of the state alone is kept by all tidy programs as soon as it is kept by edits and by the
sweep and does not look at what other changes touch (`TidyInvariant.kept`).
-/

set_option autoImplicit false

namespace SheepScene

variable {K B : Type}

/-- Edits that keep the tree and the list of actors up to date. -/
def Edit.Tidy : Edit K B → Prop
  | .despawn _ => False
  | _ => True

/-- Requests that keep the tree and the list of actors up to date. -/
def Request.Tidy : Request K B → Prop
  | .edit x => x.Tidy
  | _ => True

/-- The class of tidy programs. -/
def tidy (K B : Type) : Fitness K B :=
  fun _ p => p.Only Request.Tidy

/-- Custom components and observers are tidy. -/
abbrev TidyBehavior (K B : Type) [Behavior K B] : Prop :=
  CustomFit (tidy K B)

/-! ## Components and host functions are tidy -/

open Program

/-- Plain programs are tidy. -/
theorem tidy_of_plain {R : Type} {p : Program K B R} (h : plain K B R p) : tidy K B R p := by
  refine h.mono fun request allowed => ?_
  cases request with
  | edit x => cases x <;> first | exact trivial | exact allowed
  | _ => trivial

/-- If custom components are tidy, all components are. -/
theorem TidyBehavior.tidy_react [Scalar K] [Behavior K B] (h : TidyBehavior K B)
    (component : Component K B) (e : EntityId) (hook : Hook K) :
    tidy K B (Component K B) (component.react e hook) := by
  cases component with
  | mover m => exact only_bind (tidy_of_plain (m.plain_react e hook)) fun _ => only_pure _
  | listener => exact only_bind (tidy_of_plain (plain_listenerReact e hook)) fun _ => only_pure _
  | custom b => exact only_bind (h.react b e hook) fun _ => only_pure _

namespace HostFunctions

/-- The functions that every scene offers are tidy. -/
theorem fitTable_tidy : FitTable (tidy Float32 B) table := by
  intro f hf args
  refine (hosted hf args).mono fun request allowed => ?_
  cases request with
  | edit x => cases x <;> first | exact trivial | exact allowed
  | _ => trivial

end HostFunctions

/-! ## Changes outside the tree -/

namespace Entity

/-- What of an entity matters for the tree and for the list of actors. -/
def standing (x : Entity K B) : Bool × Option (Anchoring K) × Option (Transform K) :=
  (x.actor.isSome, x.anchoring, x.transform)

end Entity

/-- Worlds with the same tree, with the same matrices, and the same list of actors. -/
structure SameScene (w w' : World K B) : Prop where
  size : w'.entities.size = w.entities.size
  entity : ∀ e, (w'.entity? e).map Entity.standing = (w.entity? e).map Entity.standing
  roster : w'.roster = w.roster
  viewport : w'.viewport = w.viewport
  scheduler : w'.scheduler = w.scheduler

namespace SameScene

variable {w w' w₁ : World K B}

/-- Being the same scene is reflexive. -/
theorem refl (w : World K B) : SameScene w w :=
  ⟨rfl, fun _ => rfl, rfl, rfl, rfl⟩

/-- Being the same scene is transitive. -/
theorem trans (h : SameScene w w₁) (h' : SameScene w₁ w') : SameScene w w' :=
  ⟨h'.size.trans h.size, fun e => (h'.entity e).trans (h.entity e), h'.roster.trans h.roster,
    h'.viewport.trans h.viewport, h'.scheduler.trans h.scheduler⟩

/-- Changing an entity leaves the scene the same if what it stands on is kept. -/
theorem modifyEntity {e : EntityId} {f : Entity K B → Entity K B}
    (same : ∀ x : Entity K B, (f x).standing = x.standing) :
    SameScene w (w.modifyEntity e f) := by
  refine ⟨Array.size_modify, fun x => ?_, rfl, rfl, rfl⟩
  rw [World.entity?_modifyEntity]
  split
  · rw [Option.map_map]
    congr 1
    funext x
    exact same x
  · rfl

/-- Changing an actor that stays one leaves the scene the same. -/
theorem modifyActor (w : World K B) (e : EntityId) (f : Actor K → Actor K) :
    SameScene w (w.modifyActor e f) :=
  modifyEntity fun x => by simp only [Entity.standing, Option.isSome_map]

/-- Changing slots leaves the scene the same. -/
theorem modifySlots (w : World K B) (e : EntityId) (f : Array (Slot K B) → Array (Slot K B)) :
    SameScene w (w.modifySlots e f) :=
  modifyEntity fun _ => rfl

/-- Many rounds leave the scene the same if every round does. -/
theorem foldl {β : Type} {l : List β} {f : World K B → β → World K B}
    (round : ∀ w b, SameScene w (f w b)) (w : World K B) : SameScene w (l.foldl f w) := by
  induction l generalizing w with
  | nil => exact refl w
  | cons b l ih => exact (round w b).trans (ih (f w b))

/-- Marking as destroyed leaves the scene the same. -/
theorem destroy (w : World K B) (e : EntityId) : SameScene w (w.destroy e) :=
  foldl (fun w e => modifyActor w e _) w

/-- Dropping a component leaves the scene the same. -/
theorem dropComponent (w : World K B) (component : Component K B) :
    SameScene w (w.dropComponent component) := by
  unfold World.dropComponent
  split
  · exact ⟨rfl, fun _ => rfl, rfl, rfl, rfl⟩
  · exact refl w

/-- What is seen of the standing of an entity is the same. -/
theorem bind_eq {β : Type} (h : SameScene w w') {f : Entity K B → Option β}
    {g : Bool × Option (Anchoring K) × Option (Transform K) → Option β}
    (seen : ∀ x, f x = g x.standing) (e : EntityId) :
    (w'.entity? e).bind f = (w.entity? e).bind f := by
  have := congrArg (Option.bind · g) (h.entity e)
  rw [funext seen]
  simpa only [Option.bind_map, Function.comp_def] using this

/-- In the same scene places are the same. -/
theorem transform? (h : SameScene w w') (e : EntityId) : w'.transform? e = w.transform? e :=
  h.bind_eq (g := fun s => s.2.2) (fun _ => rfl) e

/-- In the same scene anchorings are the same. -/
theorem anchoring? (h : SameScene w w') (e : EntityId) : w'.anchoring? e = w.anchoring? e :=
  h.bind_eq (g := fun s => s.2.1) (fun _ => rfl) e

/-- In the same scene the same entities are actors. -/
theorem isSome_actor? (h : SameScene w w') (e : EntityId) :
    (w'.actor? e).isSome = (w.actor? e).isSome := by
  have := h.bind_eq (f := fun x => if x.actor.isSome then some () else none)
    (g := fun s => if s.1 then some () else none) (fun _ => rfl) e
  unfold World.actor?
  cases hw' : w'.entity? e <;> cases hw : w.entity? e <;> rw [hw', hw] at this <;>
    simp only [Option.bind_none, Option.bind_some] at this ⊢
  · split at this <;> simp_all
  · split at this <;> simp_all
  · split at this <;> split at this <;> simp_all

end SameScene

/-- Edits that touch neither the tree nor the list of actors. -/
def Edit.Still : Edit K B → Prop
  | .setTimeScale .. | .setUpdateEnabled .. | .destroy _ | .add .. | .retarget .. | .issueWait
  | .nameWait _ | .completeWait _ | .send .. | .tick _ | .setClockScale _ | .publishListener _
  | .draw _ | .log .. | .note _ | .probed .. => True
  | _ => False

section Edits

variable [Scalar K] [Behavior K B]

/-- An edit that leaves things still leaves the scene the same. -/
theorem SameScene.apply (w : World K B) {x : Edit K B} (still : x.Still) :
    SameScene w (w.apply x).2 := by
  have fields : ∀ {w' : World K B}, w' = { w with
      clock := w'.clock, commands := w'.commands, listener := w'.listener, waits := w'.waits,
      random := w'.random, journal := w'.journal } → SameScene w w' := by
    intro w' h
    rw [h]
    exact ⟨rfl, fun _ => rfl, rfl, rfl, rfl⟩
  cases x with
  | setTimeScale e scale => exact modifyActor w e _
  | setUpdateEnabled e enabled => exact modifyActor w e _
  | destroy e => exact destroy w e
  | add e component =>
    change SameScene w (w.addComponent e component).2
    unfold World.addComponent
    split
    · exact modifySlots w e _
    · exact trans (fields rfl) (dropComponent _ component)
  | retarget e target duration done =>
    change SameScene w (w.retarget e target duration done).2
    unfold World.retarget
    split
    · exact refl w
    · split
      · refine trans ?_ (modifySlots _ e _)
        split
        · exact fields rfl
        · exact refl w
      · exact refl w
  | send e action =>
    change SameScene w (w.send e action).2
    unfold World.send
    split
    · exact refl w
    · exact fields rfl
  | issueWait | nameWait | completeWait | tick | setClockScale | publishListener | draw | log
  | note | probed => exact fields rfl
  | _ => exact absurd still id

end Edits

/-! ## Invariants of the state -/

/-- What is to be shown of an invariant that speaks of the tree and the list of actors. -/
structure TidyInvariant [Scalar K] [Behavior K B] (I : World K B → Prop) : Prop where
  apply : ∀ {w} (x : Edit K B), x.Tidy → I w → I (w.apply x).2
  reclaim : ∀ {w} e, I w → I (w.reclaim e)
  same : ∀ {w w'}, SameScene w w' → I w → I w'
  scheduler : ∀ {w scheduler}, I w → I { w with scheduler }

/-- The scheduler of a scene, if it is there, has fit host functions only. -/
def FitScheduler (fit : Fitness K B) (w : World K B) : Prop :=
  ∀ scheduler, w.scheduler = some scheduler → FitTable fit scheduler.table

section Scheduler

variable [Scalar K] [Behavior K B]

omit [Scalar K] [Behavior K B] in
/-- What agrees on a view of the entities has the same scheduler. -/
theorem AgreesOn.scheduler {α : Type} {view : Entity K B → α} {w w' : World K B}
    (h : AgreesOn view w w') : w'.scheduler = w.scheduler := by
  rw [h.rest]

omit [Scalar K] [Behavior K B] in
/-- Telling subtrees that they are stale leaves the scheduler where it is. -/
theorem scheduler_foldl_invalidate (l : List EntityId) (w : World K B) :
    (l.foldl World.invalidate w).scheduler = w.scheduler :=
  (AgreesOn.foldl World.settles_invalidate w).scheduler

omit [Scalar K] [Behavior K B] in
/-- Despawning leaves the scheduler where it is. -/
theorem scheduler_despawn (w : World K B) (e : EntityId) :
    (w.despawn e).2.scheduler = w.scheduler := by
  rw [World.despawn_eq]

omit [Scalar K] [Behavior K B] in
/-- Reclaiming leaves the scheduler where it is. -/
theorem scheduler_reclaim (w : World K B) (e : EntityId) :
    (w.reclaim e).scheduler = w.scheduler := by
  change ((w.detach e).despawn e).2.scheduler = w.scheduler
  rw [scheduler_despawn, (World.onlyPlaces_detach w e).scheduler]

/-- No edit touches the scheduler. -/
theorem scheduler_apply (w : World K B) (x : Edit K B) :
    (w.apply x).2.scheduler = w.scheduler := by
  cases x with
  | spawn spec =>
    change (w.spawn spec).2.scheduler = w.scheduler
    unfold World.spawn
    dsimp only
    split
    · exact (World.onlyPlaces_setParent _ _ _).scheduler
    · rfl
  | spawnTransform | spawnBare => rfl
  | despawn e => exact scheduler_despawn w e
  | place e placement => exact (World.sameLinks_place w e placement).scheduler
  | placeInWorld e placement => exact (World.sameLinks_placeInWorld w e placement).scheduler
  | worldPosition e => exact (World.settles_worldPosition w e).scheduler
  | localToWorld e => exact (World.settles_localToWorld w e).scheduler
  | worldToLocal e => exact (World.settles_worldToLocal w e).scheduler
  | localToWorldPoint e v => exact (World.settles_localToWorldPoint w e v).scheduler
  | worldToLocalPoint e v => exact (World.settles_worldToLocalPoint w e v).scheduler
  | setParent e parent => exact (World.onlyPlaces_setParent w e parent).scheduler
  | removeChild parent e => exact (World.onlyPlaces_removeChild w parent e).scheduler
  | translate e offset space => exact (World.sameLinks_translate w e offset space).scheduler
  | rotate e rotation space => exact (World.sameLinks_rotate w e rotation space).scheduler
  | rotateAround e point rotation =>
    exact (World.sameLinks_rotateAround w e point rotation).scheduler
  | invalidate e => exact (World.settles_invalidate w e).scheduler
  | changeAnchoring e change =>
    change (w.changeAnchoring e change).scheduler = w.scheduler
    unfold World.changeAnchoring
    split
    · exact (World.settles_invalidate _ e).scheduler
    · rfl
  | worldRect e => exact (World.settles_worldRect w e).scheduler
  | rectContains e point => exact (World.settles_rectContains w e point).scheduler
  | setViewport viewport =>
    exact scheduler_foldl_invalidate _ { w with viewport := some viewport }
  | snapshot => exact (World.settles_snapshot w).scheduler
  | _ =>
    refine (SameScene.apply w ?_).scheduler
    trivial

end Scheduler

/-- An invariant of the state, where the scheduler has tidy host functions only. -/
def Tidily (I : World K B → Prop) (w : World K B) : Prop :=
  I w ∧ FitScheduler (tidy K B) w

namespace TidyInvariant

variable [Scalar K] [Behavior K B] {I : World K B → Prop} (invariant : TidyInvariant I)
include invariant

/-- A tidy invariant holds on in the same scene. -/
theorem tidily_same {w w' : World K B} (h : SameScene w w') (hw : Tidily I w) : Tidily I w' := by
  refine ⟨invariant.same h hw.1, fun scheduler hscheduler => ?_⟩
  exact hw.2 scheduler (h.scheduler ▸ hscheduler)

/-- A tidy invariant holds on after a tidy edit. -/
theorem tidily_apply {w : World K B} {x : Edit K B} (allowed : x.Tidy) (hw : Tidily I w) :
    Tidily I (w.apply x).2 := by
  refine ⟨invariant.apply x allowed hw.1, fun scheduler hscheduler => ?_⟩
  exact hw.2 scheduler (scheduler_apply w x ▸ hscheduler)

/-- A tidy invariant holds on after a note in the journal. -/
theorem tidily_record {w : World K B} (event : Event K B) (hw : Tidily I w) :
    Tidily I (w.record event) := by
  refine invariant.tidily_same ?_ hw
  exact ⟨rfl, fun _ => rfl, rfl, rfl, rfl⟩

/-- Tidy programs keep an invariant of the state. -/
theorem keeps_program {perform : Performer K B}
    (serves : Serves (fun _ : List (Executing K B) => Tidily I) perform) {R : Type}
    {p : Program K B R} (fit : tidy K B R p) : Keeps (Tidily I) (p.run perform) :=
  serves.keeps_only (c := []) (fun _ _ allowed hw => invariant.tidily_apply allowed hw)
    (fun event _ _ hw => invariant.tidily_record event hw) fit

/-- An invariant of the state, together with a scheduler of tidy host functions, is kept by a scene
whose components are tidy. -/
theorem kept (behaved : TidyBehavior K B) : Kept (tidy K B) fun _ => Tidily I where
  program serves _ _ fit _ := invariant.keeps_program serves fit
  react serves e index component hook out :=
    invariant.keeps_program serves (behaved.tidy_react component e hook)
  observe := behaved.observe
  record event _ hw := invariant.tidily_record event hw
  note event hw := invariant.tidily_record event hw
  switch e state hw := invariant.tidily_same (SameScene.modifyActor _ _ _) hw
  enable e index enabled hw := invariant.tidily_same (SameScene.modifySlots _ _ _) hw
  putOff e index f hw := invariant.tidily_same (SameScene.modifySlots _ _ _) hw
  tick dt hw := invariant.tidily_apply (x := .tick dt) trivial hw
  dequeue hw := by
    refine invariant.tidily_same ?_ hw
    exact ⟨rfl, fun _ => rfl, rfl, rfl, rfl⟩
  place e placement hw := invariant.tidily_apply (x := .place e placement) trivial hw
  destroy e hw := invariant.tidily_same (SameScene.destroy _ e) hw
  reclaim e hw := by
    refine ⟨invariant.reclaim e hw.1, fun scheduler hscheduler => ?_⟩
    exact hw.2 scheduler (scheduler_reclaim _ e ▸ hscheduler)
  table hw hscheduler := hw.2 _ hscheduler
  lend hw := ⟨invariant.scheduler hw.1, fun scheduler hnone => nomatch hnone⟩
  restore fit hw := by
    refine ⟨invariant.scheduler hw.1, fun scheduler hsome => ?_⟩
    cases hsome
    exact fit
  take _ _ hw := invariant.tidily_same (SameScene.modifySlots _ _ _) hw
  put _ hw := invariant.tidily_same (SameScene.modifySlots _ _ _) hw
  drop _ hw := invariant.tidily_same (SameScene.dropComponent _ _) hw

/-- What a tidy invariant says holds in every scene that comes about from an empty one. -/
theorem reachable (behaved : TidyBehavior K B)
    (empty : ∀ w : World K B, w.entities = #[] → w.actors = [] → I w) {w : World K B}
    (h : Reachable (tidy K B) w) : I w := by
  refine (h.keeps (invariant.kept behaved) fun w hentities hactors _ hscheduler => ?_).1
  refine ⟨empty w hentities hactors, fun scheduler hsome => ?_⟩
  rw [hscheduler] at hsome
  cases hsome

end TidyInvariant

end SheepScene
