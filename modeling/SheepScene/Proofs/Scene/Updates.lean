import SheepScene.Proofs.Scene.Listing
import SheepScene.Proofs.Scene.Reentrancy

/-!
# Programs that wait to be updated

A program is patient if it never asks for an update of an actor, be it of one or of all. The
components and functions that every scene comes with are patient. Where everything that a scene
runs is patient, no component is sent an update unless by a pass of a frame: other requests,
observers and the hooks themselves leave the updates in the journal as they are
(`World.Poised.perform`, `World.Poised.respond_event`), and an update for a component of a scene at
rest adds itself and nothing else (`World.Poised.respond_update`).
-/

set_option autoImplicit false

namespace SheepScene

variable {K B : Type}

/-- The update that a component begins to act on at a stage. -/
def Stage.update? (s : Stage K) : Option (Acting K) :=
  if s.stage = .began ∧ s.hook.isUpdate then some ⟨s.actor, s.index, s.hook⟩ else none

/-- A hook that is no update begins none. -/
theorem Stage.update?_eq_none {s : Stage K} (h : s.hook.isUpdate = false) : s.update? = none := by
  simp [update?, h]

/-- The updates that components have begun to act on, oldest first. -/
def World.updates (w : World K B) : List (Acting K) :=
  w.stages.filterMap Stage.update?

/-! ## Patient programs -/

/-- No program asks for updates, and none are sent. -/
def Scope.patient (K B : Type) : Scope K B where
  requests request := ¬ request.Updates
  hooks hook := hook.isUpdate = false
  destroy _ := id
  place _ _ := id
  tick _ := id
  enable := rfl
  disable := rfl
  updates _ patient updates := absurd updates patient

/-- No program asks for updates, and passes send them. -/
def Scope.passing (K B : Type) : Scope K B where
  requests request := ¬ request.Updates
  hooks _ := True
  destroy _ := id
  place _ _ := id
  tick _ := id
  enable := trivial
  disable := trivial
  updates _ _ _ _ := ⟨trivial, trivial⟩

/-- Custom components and observers are patient. -/
abbrev PatientBehavior (K B : Type) [Behavior K B] : Prop :=
  CustomFit (Scope.patient K B).fit

open Program

/-- Plain programs are patient. -/
theorem patient_of_plain {R : Type} {p : Program K B R} (h : plain K B R p) :
    (Scope.patient K B).fit R p := by
  refine h.mono fun request allowed updates => ?_
  cases request with
  | updateActor | lateUpdateActor | updateActors | lateUpdateActors => exact allowed
  | _ => exact updates

/-- If custom components are patient, all components are. -/
theorem PatientBehavior.behaved [Scalar K] [Behavior K B] (h : PatientBehavior K B) :
    (Scope.patient K B).Behaved where
  observe := h.observe
  react component e hook := by
    cases component with
    | mover m => exact only_bind (patient_of_plain (m.plain_react e hook)) fun _ => only_pure _
    | listener =>
      exact only_bind (patient_of_plain (plain_listenerReact e hook)) fun _ => only_pure _
    | custom b => exact only_bind (h.react b e hook) fun _ => only_pure _

/-- If custom components are patient, all components are, also where passes send updates. -/
theorem PatientBehavior.passing [Scalar K] [Behavior K B] (h : PatientBehavior K B) :
    (Scope.passing K B).Behaved :=
  ⟨h.behaved.react, h.observe⟩

/-- The functions that every scene offers are patient. -/
theorem HostFunctions.fitTable_patient : FitTable (Scope.patient Float32 B).fit table := by
  intro f hf args
  refine (hosted hf args).mono fun request allowed updates => ?_
  cases request with
  | updateActor | lateUpdateActor | updateActors | lateUpdateActors => exact allowed
  | _ => exact updates

/-! ## Without passes there are no updates -/

namespace World

/-- Components have begun to act on the given updates, and no update waits. -/
structure Updated (done : List (Acting K)) (w : World K B) : Prop where
  updates : w.updates = done
  waiting : ∀ (x : EntityId × Nat) slot, w.slot? x.1 x.2 = some slot →
    ∀ hook ∈ slot.deferred, hook.isUpdate = false

namespace Updated

variable {done : List (Acting K)} {w w' : World K B}

/-- No update begins as long as no slot is disturbed and no stage is added. -/
theorem undisturbed (h : w.Updated done) (stages : w'.stages = w.stages)
    (undisturbed : w.Undisturbed w') : w'.Updated done := by
  refine ⟨by rw [World.updates, stages]; exact h.updates, fun x slot' hslot' hook hmem => ?_⟩
  rcases undisturbed.slot x slot' hslot' with ⟨slot, hslot, -, deferred⟩ | ⟨-, -, deferred⟩
  · exact h.waiting x slot hslot hook (deferred ▸ hmem)
  · rw [deferred] at hmem
    cases hmem

/-- A stage adds the update that begins with it. -/
theorem record (h : w.Updated done) (e : EntityId) (index : Nat) (stage : HookStage)
    (hook : Hook K) : (w.record (.hook e index stage hook)).Updated
      (done ++ (Stage.update? ⟨e, index, stage, hook⟩).toList) := by
  refine ⟨?_, h.waiting⟩
  rw [World.updates, stages_record_hook, List.filterMap_append, ← World.updates, h.updates]
  cases hupdate : Stage.update? ⟨e, index, stage, hook⟩ <;> simp [hupdate]

/-- Most stages are not about updates. -/
theorem record_aside (h : w.Updated done) {e : EntityId} {index : Nat} {stage : HookStage}
    {hook : Hook K} (aside : Stage.update? ⟨e, index, stage, hook⟩ = none) :
    (w.record (.hook e index stage hook)).Updated done := by
  have recorded := h.record e index stage hook
  rwa [aside, Option.toList_none, List.append_nil] at recorded

/-- A slot changes without an update coming to wait. -/
theorem modifySlot (h : w.Updated done) (e : EntityId) (index : Nat) {f : Slot K B → Slot K B}
    (waiting : ∀ slot, w.slot? e index = some slot → ∀ hook ∈ (f slot).deferred,
      hook.isUpdate = false) : (w.modifySlot e index f).Updated done := by
  refine ⟨h.updates, fun x slot' hslot' => ?_⟩
  rw [slot?_modifySlot] at hslot'
  split at hslot'
  · rename_i here
    subst here
    obtain ⟨slot, hslot, rfl⟩ := Option.map_eq_some_iff.1 hslot'
    exact waiting slot hslot
  · exact h.waiting x slot' hslot'

end Updated

end World

variable [Scalar K] [Behavior K B]

/-- Changes without passes add no update. -/
theorem Change.updated {done : List (Acting K)} {x y : Instant K B}
    (change : Change (Scope.patient K B) x y) (h : x.world.Updated done) :
    y.world.Updated done := by
  cases change with
  | edit x _ => exact h.undisturbed (World.stages_apply _ x) (.apply _ x)
  | record aside => exact h.undisturbed (World.stages_record_aside _ aside) (.of_entities rfl)
  | dequeue | lend | restore _ => exact h.undisturbed rfl (.of_entities rfl)
  | reclaim e => exact h.undisturbed (World.stages_reclaim _ e) (.reclaim _ e)
  | switch ha hstate =>
    exact h.undisturbed rfl (.of_slots (.switch ha hstate) (World.slots?_modifyActor _ _ _))
  | enable e index enabled =>
    exact h.undisturbed rfl (.modifySlot _ e index (fun _ _ => rfl) fun _ => rfl)
  | @putOff _ _ e index _ hook sent hslot out =>
    have put : Stage.update? ⟨e, index, .deferred, hook⟩ = none := rfl
    refine (h.modifySlot e index fun slot hslot hook' hmem => ?_).record_aside put
    rcases List.mem_append.1 hmem with old | new
    · exact h.waiting (e, index) slot hslot hook' old
    · rw [List.mem_singleton.1 new]
      exact sent
  | @start _ _ e index _ _ hook sent _ _ =>
    refine World.Updated.record_aside ?_ (Stage.update?_eq_none sent)
    exact h.modifySlot e index fun slot hslot => h.waiting (e, index) slot hslot
  | @resume _ _ e index hook _ next _ hslot hdeferred =>
    have waited := h.waiting (e, index) _ hslot
    rw [hdeferred] at waited
    have ended : Stage.update? ⟨e, index, .ended, hook⟩ = none := rfl
    have patient := waited next (List.mem_cons_self ..)
    refine World.Updated.record_aside ((h.record_aside ended).modifySlot e index ?_)
      (Stage.update?_eq_none patient)
    intro slot _ hook' hmem
    exact waited hook' (List.mem_cons_of_mem _ hmem)
  | @finish _ _ e index hook _ component hslot _ =>
    have ended : Stage.update? ⟨e, index, .ended, hook⟩ = none := rfl
    apply (h.record_aside ended).modifySlot e index
    intro slot hslot
    exact h.waiting (e, index) slot hslot
  | @vanish _ _ e index hook component _ =>
    have ended : Stage.update? ⟨e, index, .ended, hook⟩ = none := rfl
    apply (h.record_aside ended).undisturbed (World.stages_dropComponent _ component)
    exact .of_entities (by rw [World.dropComponent_eq])

/-! ## Scenes at rest -/

namespace World

/-- Without passes no update begins. -/
theorem Updated.led {done : List (Acting K)} {acting acting' : List (Acting K)} {w w' : World K B}
    (h : w.Updated done) (leads : (Scope.patient K B).Leads ⟨acting, w⟩ ⟨acting', w'⟩) :
    w'.updates = done :=
  (leads.keeps (I := fun y => y.world.Updated done) Change.updated h).updates

/-- A scene in which nothing is executing and whose host functions are patient. -/
structure Poised (w : World K B) : Prop where
  rested : w.Rested
  fitting : FitScheduler (Scope.patient K B).fit w
  listed : w.Listed

/-- What a scene comes to while patient programs run and passes send updates. -/
def GoesOn (w w' : World K B) : Prop :=
  (Scope.passing K B).Leads ⟨[], w⟩ ⟨[], w'⟩

namespace GoesOn

variable {w w' w₁ : World K B}

/-- A scene may go on by standing still. -/
theorem refl (w : World K B) : GoesOn w w :=
  Relation.ReflTransGen.refl

/-- A scene may go on by going on and on. -/
theorem trans (h : GoesOn w w₁) (h' : GoesOn w₁ w') : GoesOn w w' :=
  Relation.ReflTransGen.trans h h'

/-- A world that a scene goes on to comes later. -/
theorem precedes (h : GoesOn w w') : w.Precedes w' :=
  Scope.Leads.precedes h

/-- A world that a scene goes on to is poised like the one before. -/
theorem poised (h : GoesOn w w') (poised : w.Poised) : w'.Poised where
  rested := (Scope.Leads.keeps Change.inService h (.rested poised.rested)).world_rested
  fitting := Scope.Leads.fitScheduler h poised.fitting
  listed := Scope.Leads.keeps (I := fun y => y.world.Listed) Change.listed h poised.listed

end GoesOn

namespace Poised

variable (behaved : PatientBehavior K B) {w w' : World K B} (h : w.Poised)

omit [Scalar K] [Behavior K B] in
include h in
/-- In a poised scene no update waits. -/
theorem updated : w.Updated w.updates where
  updates := rfl
  waiting x slot hslot hook hmem := by
    rw [(h.rested x slot hslot).2] at hmem
    cases hmem

omit [Scalar K] [Behavior K B] in
include h in
/-- Its host functions are patient, whether passes send updates or not. -/
theorem fitPassing : FitScheduler (Scope.passing K B).fit w :=
  h.fitting

include behaved h

/-- A request that does not ask for updates adds none, whatever it sets off. -/
theorem perform {request : Request K B} (patient : ¬ request.Updates) {answer : request.Answer}
    (hrun : SceneM.perform request w = .ok answer w') :
    w.GoesOn w' ∧ w'.updates = w.updates := by
  constructor
  · have performed : Keeps ((Scope.passing K B).Led ⟨[], w⟩ []) (SceneM.perform request) :=
      Scope.led_perform h.fitPassing behaved.passing SceneM.hookLimit
        ⟨fun _ _ => patient, fun _ _ => ⟨trivial, trivial⟩⟩ []
    exact (performed w .refl answer w' hrun).leads
  · have performed : Keeps ((Scope.patient K B).Led ⟨[], w⟩ []) (SceneM.perform request) :=
      Scope.led_perform h.fitting behaved.behaved SceneM.hookLimit
        ⟨fun _ _ => patient, fun updates => absurd updates patient⟩ []
    exact h.updated.led (performed w .refl answer w' hrun).leads

/-- Observers add no updates. -/
theorem respond_event {depth : Nat} {event : ActorEvent K}
    (hrun : SceneM.respond depth (.event event) w = .ok () w') :
    w.GoesOn w' ∧ w'.updates = w.updates := by
  constructor
  · exact Scope.leads_respond behaved.passing h.fitPassing hrun trivial []
  · exact h.updated.led (Scope.leads_respond behaved.behaved h.fitting hrun trivial [])

/-- An enabled component begins to act on an update that it is sent, and what it sets off adds no
other. -/
theorem respond_update {depth : Nat} {e : EntityId} {index : Nat} {hook : Hook K}
    (update : hook.isUpdate) (enabled : w.slotEnabled e index)
    (hrun : SceneM.respond depth (.hook e index hook) w = .ok () w') :
    w.GoesOn w' ∧ w'.updates = w.updates ++ [⟨e, index, hook⟩] := by
  constructor
  · exact Scope.leads_respond behaved.passing h.fitPassing hrun trivial []
  · obtain ⟨slot, hslot⟩ := exists_slot_of_slotEnabled enabled
    obtain ⟨component, hcomponent⟩ := Option.isSome_iff_exists.1 (h.rested (e, index) slot hslot).1
    cases depth with
    | zero => cases hrun
    | succ depth =>
      have taken : (w.modifySlot e index fun slot => { slot with component := none }).Updated
          w.updates :=
        h.updated.modifySlot e index fun slot hslot => h.updated.waiting (e, index) slot hslot
      have added : Stage.update? ⟨e, index, .began, hook⟩ = some ⟨e, index, hook⟩ := by
        simp [Stage.update?, update]
      have begins := taken.record e index .began hook
      rw [added] at begins
      -- Once the component has begun, all changes are patient ones.
      exact begins.led
        (Scope.steps_served behaved.behaved h.fitting hslot hcomponent hrun []).leads

end Poised

end World

end SheepScene
