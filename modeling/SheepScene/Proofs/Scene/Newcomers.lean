import SheepScene.Proofs.Scene.Passes

/-!
# Actors that are spawned during a pass

A pass visits the actors that are listed when it begins. Entities are numbered as they come, so an
actor that is spawned during a pass has a number that was not given yet when the pass began
(`Tour.Newcomer`), and the pass does not visit it.

The passes of a frame take their lists one after the other. What is spawned during the first one is
listed when the second one begins: such an actor is not updated in the frame, but it is late-updated
in it (`newcomers_wait_for_the_next_pass`). Only what is spawned during the second pass waits for
the next frame.
-/

set_option autoImplicit false

namespace SheepScene

variable {K B : Type}

/-- An entity that is not there yet when a pass begins. -/
def Tour.Newcomer (tour : Tour K B) (e : EntityId) : Prop :=
  tour.world.entities.size ≤ e.index

instance (tour : Tour K B) (e : EntityId) : Decidable (tour.Newcomer e) :=
  inferInstanceAs (Decidable (_ ≤ _))

section Tours

variable [Scalar K] [Behavior K B] {pass : Pass} {tour : Tour K B} {w w' : World K B}

/-- A pass sends nothing to newcomers. -/
theorem Tour.Made.not_newcomer (made : tour.Made w) {d : Dispatch K B}
    (hd : d ∈ tour.dispatches pass) : ¬ tour.Newcomer d.target.actor := by
  obtain ⟨visit, hvisit, hd⟩ := List.mem_flatMap.1 hd
  have listed : visit.actor ∈ tour.world.actors := by
    rw [← made.actors]
    exact List.mem_map_of_mem hvisit
  rw [actor_of_mem_dispatches hd]
  exact Nat.not_le_of_lt (made.poised.listed.known _ listed)

/-- A place on a newcomer is not among those to which a pass sends. -/
theorem Tour.Made.filter_newcomer (made : tour.Made w) {e : EntityId} (new : tour.Newcomer e)
    (index : Nat) :
    ((tour.dispatches pass).map Dispatch.target).filter (fun x => x.place = (e, index)) = [] := by
  rw [List.filter_eq_nil_iff]
  intro x hx here
  obtain ⟨d, hd, rfl⟩ := List.mem_map.1 hx
  have actor : d.target.actor = e := congrArg Prod.fst (of_decide_eq_true here)
  refine made.not_newcomer hd ?_
  rwa [actor]

/-- Who is new to a later pass is new to an earlier one. -/
theorem Tour.Newcomer.earlier {later : Tour K B} {e : EntityId} (new : later.Newcomer e)
    (goesOn : tour.world.GoesOn later.world) : tour.Newcomer e :=
  Nat.le_trans goesOn.precedes.size new

end Tours

variable [Scalar K] [Behavior K B]

/-- Actors that are spawned during a frame, whatever else hooks, observers and host functions do, as
long as they ask for no updates themselves. The first pass sends updates, and none to an actor that
was not there when it began; the second pass sends late updates, and none to an actor that was not
there when that pass began. So an actor that is spawned during the second pass gets nothing in the
frame. A component of an actor that was spawned during the first pass, if it is there when the
second one begins, the actor is still there afterwards, and the second pass finds it ready, gets
exactly one of both in the frame: a late update. -/
theorem newcomers_wait_for_the_next_pass (behaved : PatientBehavior K B) {w w' : World K B}
    (h : Reachable (Scope.everything K B).fit w)
    (patient : FitScheduler (Scope.patient K B).fit w) {dt : K}
    (hrun : SceneM.frame dt w = .ok () w') :
    ∃ updates lates : Tour K B, SceneM.touredFrame dt w = .ok (updates, lates) w' ∧
      w'.updates = w.updates ++ ((updates.dispatches .update).map Dispatch.target ++
        (lates.dispatches .lateUpdate).map Dispatch.target) ∧
      (∀ d ∈ updates.dispatches .update,
        (∃ dt, d.target.hook = .update dt) ∧ ¬ updates.Newcomer d.target.actor) ∧
      (∀ d ∈ lates.dispatches .lateUpdate,
        (∃ dt, d.target.hook = .lateUpdate dt) ∧ ¬ lates.Newcomer d.target.actor) ∧
      (∀ e, lates.Newcomer e → updates.Newcomer e) ∧
      ∀ e index, updates.Newcomer e → index < lates.world.componentCount e →
        (w'.actor? e).isSome → lates.FindsReady e index →
        ∃ visit ∈ lates.visits, visit.actor = e ∧ ∃ a, visit.world.actor? e = some a ∧
          ((updates.dispatches .update).map Dispatch.target ++
              (lates.dispatches .lateUpdate).map Dispatch.target).filter
              (fun x => x.place = (e, index))
            = [⟨e, index, .lateUpdate (lates.world.frameDelta * a.timeScale)⟩] := by
  have poised : w.Poised :=
    ⟨h.rested, patient, h.listed Scope.behaved_everything fun _ => ⟨trivial, trivial⟩⟩
  rw [SceneM.frame_eq_touredFrame] at hrun
  obtain ⟨⟨updates, lates⟩, htoured, -⟩ := map_ok hrun
  obtain ⟨sends, ⟨-, first⟩, second⟩ := sends_inTurn behaved poised htoured
  refine ⟨updates, lates, htoured, ?_, fun d hd => ?_, fun d hd => ?_,
    fun e new => new.earlier first.left, fun e index new there stays ready => ?_⟩
  · simpa using sends.updates
  · exact ⟨first.inOrder.hooks d hd, first.not_newcomer hd⟩
  · exact ⟨second.inOrder.hooks d hd, second.not_newcomer hd⟩
  · obtain ⟨visit, hvisit, actor, a, ha, sent⟩ := second.sends_ready (.refl _) there stays ready
    refine ⟨visit, hvisit, actor, a, ha, ?_⟩
    rw [List.filter_append, first.filter_newcomer new, List.nil_append]
    exact sent

/-! ## A component that spawns -/

/-- Parents spawn an actor with a child when they are updated. -/
inductive Family where
  | parent
  | child

instance : Behavior Float32 Family where
  typeName
    | .parent => "Parent"
    | .child => "Child"
  react b _ hook :=
    match b, hook with
    | .parent, .update _ => do
      let e ← Program.edit (.spawn (.named "b"))
      let _ ← Program.edit (.add e (.custom .child))
      return b
    | b, _ => return b

/-- An actor with a parent. -/
def familyScene : Program Float32 Family Unit := do
  let a ← Program.edit (.spawn (.named "a"))
  let _ ← Program.edit (.add a (.custom .parent))
  return ()

/-- The members of the family are patient. -/
theorem patientBehavior_family : PatientBehavior Float32 Family where
  react b e hook := by
    cases b with
    | parent =>
      cases hook with
      | update dt =>
        refine Program.only_bind (Program.only_edit id) fun e => ?_
        exact Program.only_bind (Program.only_edit id) fun _ => Program.only_pure _
      | _ => exact Program.only_pure _
    | child => exact Program.only_pure _
  observe _ := trivial

/-- A frame in which a child is spawned during the first pass. -/
theorem exists_family : ∃ w w' : World Float32 Family,
    Reachable (Scope.everything Float32 Family).fit w ∧
    FitScheduler (Scope.patient Float32 Family).fit w ∧ SceneM.frame 1 w = .ok () w' ∧
    ∃ updates lates : Tour Float32 Family, SceneM.touredFrame 1 w = .ok (updates, lates) w' ∧
      updates.Newcomer ⟨1⟩ ∧ 0 < lates.world.componentCount ⟨1⟩ ∧ (w'.actor? ⟨1⟩).isSome ∧
      lates.FindsReady ⟨1⟩ 0 ∧
      (w'.updates.drop w.updates.length).map Acting.place = [(⟨0⟩, 0), (⟨0⟩, 0), (⟨1⟩, 0)] := by
  have run : familyScene.passes .bare fun _ w =>
      passes (SceneM.touredFrame 1) { w with scheduler := some (.ofTable HostFunctions.table) }
        fun tours w' =>
          decide (tours.1.Newcomer ⟨1⟩) && decide (0 < tours.2.world.componentCount ⟨1⟩) &&
          (w'.actor? ⟨1⟩).isSome && decide (tours.2.FindsReady ⟨1⟩ 0) &&
          decide ((w'.updates.drop w.updates.length).map Acting.place
            = [(⟨0⟩, 0), (⟨0⟩, 0), (⟨1⟩, 0)]) := by
    decide +kernel
  obtain ⟨_, w₀, hrun, frame⟩ := Program.exists_of_passes run
  obtain ⟨⟨updates, lates⟩, w', htoured, checked⟩ := exists_of_passes frame
  simp only [Bool.and_eq_true, decide_eq_true_eq] at checked
  obtain ⟨⟨⟨⟨new, there⟩, stays⟩, ready⟩, places⟩ := checked
  have built : Reachable (Scope.everything Float32 Family).fit w₀ :=
    .step (.empty rfl rfl rfl rfl) (.program (Scope.fit_everything familyScene) hrun)
  refine ⟨{ w₀ with scheduler := some (.ofTable HostFunctions.table) }, w', ?_, ?_, ?_,
    updates, lates, htoured, new, there, stays, ready, places⟩
  · exact .step built (.install fun _ _ _ => Scope.fit_everything _)
  · intro scheduler hscheduler
    cases hscheduler
    exact HostFunctions.fitTable_patient
  · rw [SceneM.frame_eq_touredFrame]
    exact map_of_ok htoured

/-- The child gets one late update in the frame in which it is spawned. -/
theorem newcomers_wait_for_the_next_pass_family :
    PatientBehavior Float32 Family ∧ ∃ w w' : World Float32 Family,
      Reachable (Scope.everything Float32 Family).fit w ∧
      FitScheduler (Scope.patient Float32 Family).fit w ∧ SceneM.frame 1 w = .ok () w' ∧
      ∃ updates lates : Tour Float32 Family,
        SceneM.touredFrame 1 w = .ok (updates, lates) w' ∧ updates.Newcomer ⟨1⟩ ∧
        ∃ dt, ((updates.dispatches .update).map Dispatch.target ++
            (lates.dispatches .lateUpdate).map Dispatch.target).filter
            (fun x => x.place = (⟨1⟩, 0)) = [⟨⟨1⟩, 0, .lateUpdate dt⟩] := by
  obtain ⟨w, w', h, patient, hrun, updates, lates, htoured, new, there, stays, ready, -⟩ :=
    exists_family
  obtain ⟨updates', lates', htoured', -, -, -, -, once⟩ :=
    newcomers_wait_for_the_next_pass patientBehavior_family h patient hrun
  cases htoured.symm.trans htoured'
  obtain ⟨_, -, -, a, -, sent⟩ := once ⟨1⟩ 0 new there stays ready
  exact ⟨patientBehavior_family, w, w', h, patient, hrun, updates, lates, htoured, new, _, sent⟩

/-- Components of actors that are spawned during a pass may act on an update in the same frame. -/
theorem newcomers_may_act_at_once : ¬ ∀ w w' : World Float32 Family,
    Reachable (Scope.everything Float32 Family).fit w →
    FitScheduler (Scope.patient Float32 Family).fit w →
    ∀ dt updates lates, SceneM.touredFrame dt w = .ok (updates, lates) w' →
      ∀ x ∈ w'.updates.drop w.updates.length, ¬ updates.Newcomer x.actor := by
  intro claim
  obtain ⟨w, w', h, patient, -, updates, lates, htoured, new, -, -, -, places⟩ := exists_family
  obtain ⟨x, hx, place⟩ : ∃ x ∈ w'.updates.drop w.updates.length, x.place = (⟨1⟩, 0) := by
    rw [← List.mem_map, places]
    exact List.mem_of_mem_getLast? rfl
  refine claim w w' h patient 1 updates lates htoured x hx ?_
  rwa [show x.actor = ⟨1⟩ from congrArg Prod.fst place]

end SheepScene
