import SheepScene.Proofs.Scene.Changes

/-!
# The list of actors, in the order of their creation

An actor is listed from the time when it is spawned until it is reclaimed, after all actors that
were there before it. An entity may also be dropped without being taken off the list, so that the
list of any scene whatsoever names all actors there are, in the order of their creation, and
possibly entities that have gone (`World.Listed`).
-/

set_option autoImplicit false

namespace SheepScene

variable {K B : Type}

namespace World

/-- Every actor is listed, later actors after earlier ones. -/
structure Listed (w : World K B) : Prop where
  listed : ∀ e, (w.actor? e).isSome → e ∈ w.actors
  sorted : w.actors.Pairwise fun a b => a.index < b.index
  known : ∀ e ∈ w.actors, e.index < w.entities.size

/-- Changes with which no actor comes and nothing happens to the list. -/
structure Unjoined (w w' : World K B) : Prop where
  size : w.entities.size ≤ w'.entities.size
  actors : ∀ e, (w'.actor? e).isSome → (w.actor? e).isSome
  roster : w'.actors = w.actors

/-- Actors stay listed as long as nobody joins. -/
theorem Listed.unjoined {w w' : World K B} (h : w.Listed) (unjoined : w.Unjoined w') :
    w'.Listed where
  listed e he := by
    rw [unjoined.roster]
    exact h.listed e (unjoined.actors e he)
  sorted := by
    rw [unjoined.roster]
    exact h.sorted
  known e he := by
    rw [unjoined.roster] at he
    exact Nat.lt_of_lt_of_le (h.known e he) unjoined.size

namespace Unjoined

variable {w w' w₁ : World K B}

/-- That nobody has joined is transitive. -/
theorem trans (h : Unjoined w w₁) (h' : Unjoined w₁ w') : Unjoined w w' :=
  ⟨Nat.le_trans h.size h'.size, fun e he => h.actors e (h'.actors e he), h'.roster.trans h.roster⟩

/-- Nobody joins where the entities and the roster stay the same. -/
theorem of_entities (entities : w'.entities = w.entities) (roster : w'.roster = w.roster) :
    Unjoined w w' := by
  refine ⟨Nat.le_of_eq (by rw [entities]), fun e he => ?_, by rw [World.actors, roster]; rfl⟩
  unfold actor? entity? at he ⊢
  rwa [← entities]

/-- Nobody joins where only placements and links move. -/
theorem of_onlyPlaces (h : OnlyPlaces w w') : Unjoined w w' := by
  have roster : w'.roster = w.roster := by rw [h.rest]
  refine ⟨Nat.le_of_eq h.size.symm, fun e he => ?_, by rw [World.actors, roster]; rfl⟩
  rwa [← h.actor? e]

/-- Nobody joins where the links are kept. -/
theorem of_sameLinks (h : SameLinks w w') : Unjoined w w' :=
  of_onlyPlaces h.onlyPlaces

/-- Nobody joins by queries. -/
theorem of_settles (h : Settles w w') : Unjoined w w' :=
  of_sameLinks h.sameLinks

/-- Nobody joins where the scene stays the same. -/
theorem of_sameScene (h : SameScene w w') : Unjoined w w' := by
  refine ⟨Nat.le_of_eq h.size.symm, fun e he => ?_, by rw [World.actors, h.roster]; rfl⟩
  rwa [← h.isSome_actor? e]

/-- Nobody joins by a note in the journal. -/
theorem record (w : World K B) (event : Event K B) : Unjoined w (w.record event) :=
  of_entities rfl rfl

/-- Nobody joins by a change to an anchoring. -/
theorem changeAnchoring (w : World K B) (e : EntityId) (change : AnchoringChange K) :
    Unjoined w (w.changeAnchoring e change) := by
  have changed : ∀ f : Option (Anchoring K) → Option (Anchoring K), Unjoined w
      (w.modifyEntity e fun entity => { entity with anchoring := f entity.anchoring }) := by
    refine fun f => ⟨Nat.le_of_eq Array.size_modify.symm, fun x hx => ?_, rfl⟩
    rw [actor?, entity?_modifyEntity] at hx
    split at hx
    · cases hentity : w.entity? x with
      | none => simp [hentity] at hx
      | some entity => simpa [actor?, hentity] using hx
    · exact hx
  unfold World.changeAnchoring
  split
  · exact (changed _).trans (of_settles (settles_invalidate _ e))
  · exact record w _

/-- What is created without being an actor. -/
theorem create (w : World K B) {entity : Entity K B} (plain : entity.actor = none) :
    Unjoined w (w.create entity).2 := by
  refine ⟨(Precedes.create w entity).size, fun e he => ?_, rfl⟩
  rw [actor?, entity?_create] at he
  split at he
  · rw [Option.bind_some, plain] at he
    cases he
  · exact he

/-- Nobody joins by despawning. -/
theorem despawn (w : World K B) (e : EntityId) : Unjoined w (w.despawn e).2 := by
  refine ⟨(Precedes.despawn w e).size, fun x hx => ?_, ?_⟩
  · rw [actor?, entity?_despawn] at hx
    split at hx
    · cases hx
    · exact hx
  · rw [despawn_eq]
    rfl

end Unjoined

/-- In an empty scene all actors are listed. -/
theorem Listed.of_empty {w : World K B} (entities : w.entities = #[]) (actors : w.actors = []) :
    w.Listed := by
  refine ⟨fun e he => ?_, ?_, ?_⟩
  · unfold actor? entity? at he
    simp [entities] at he
  · rw [actors]
    exact .nil
  · rw [actors]
    nofun

namespace Listed

variable {w : World K B} (h : w.Listed)
include h

/-- An actor that is spawned comes last. -/
theorem spawn (spec : ActorSpec K) : (w.spawn spec).2.Listed := by
  have joined : ∀ entity : Entity K B, ({ (w.create entity).2 with
      roster := some ((w.create entity).2.actors ++ [(w.create entity).1]) } :
        World K B).Listed := by
    intro entity
    have size : (w.create entity).2.entities.size = w.entities.size + 1 := Array.size_push _
    refine ⟨fun e he => ?_, ?_, fun e he => ?_⟩
    · change ((w.create entity).2.actor? e).isSome at he
      refine List.mem_append.2 ?_
      by_cases new : e.index = w.entities.size
      · exact .inr (List.mem_singleton.2 (congrArg EntityId.mk new))
      · rw [actor?, entity?_create, if_neg new] at he
        exact .inl (h.listed e he)
    · refine List.pairwise_append.2 ⟨h.sorted, List.pairwise_singleton _ _, fun a ha b hb => ?_⟩
      rw [List.mem_singleton.1 hb]
      exact h.known a ha
    · refine Nat.lt_of_lt_of_eq ?_ size.symm
      rcases List.mem_append.1 he with old | new
      · exact Nat.lt_succ_of_lt (h.known e old)
      · rw [List.mem_singleton.1 new]
        exact Nat.lt_succ_self _
  unfold World.spawn
  dsimp only
  split
  · exact (joined _).unjoined (.of_onlyPlaces (onlyPlaces_setParent _ _ _))
  · exact joined _

/-- An actor that is reclaimed is taken off the list. -/
theorem reclaim (e : EntityId) : (w.reclaim e).Listed := by
  have left : w.Unjoined ((w.detach e).despawn e).2 :=
    (Unjoined.of_onlyPlaces (onlyPlaces_detach w e)).trans (.despawn _ e)
  have before := h.unjoined left
  have roster : (w.reclaim e).actors = ((w.detach e).despawn e).2.actors.filter (· != e) := by
    unfold World.reclaim World.actors
    dsimp only
    cases ((w.detach e).despawn e).2.roster <;> rfl
  refine ⟨fun x hx => ?_, ?_, fun x hx => ?_⟩
  · rw [roster, List.mem_filter, bne_iff_ne]
    refine ⟨before.listed x hx, fun here => ?_⟩
    rw [actor?, entity?_reclaim, if_pos here] at hx
    cases hx
  · rw [roster]
    exact before.sorted.filter _
  · rw [roster] at hx
    exact before.known x (List.mem_filter.1 hx).1

variable [Scalar K] [Behavior K B]

/-- Edits keep the list. -/
theorem apply (x : Edit K B) : (w.apply x).2.Listed := by
  cases x with
  | spawn spec => exact h.spawn spec
  | spawnTransform position rotation scale => exact h.unjoined (.create w rfl)
  | spawnBare => exact h.unjoined (.create w rfl)
  | despawn e => exact h.unjoined (.despawn w e)
  | place e placement => exact h.unjoined (.of_sameLinks (sameLinks_place w e placement))
  | placeInWorld e placement =>
    exact h.unjoined (.of_sameLinks (sameLinks_placeInWorld w e placement))
  | worldPosition e => exact h.unjoined (.of_settles (settles_worldPosition w e))
  | localToWorld e => exact h.unjoined (.of_settles (settles_localToWorld w e))
  | worldToLocal e => exact h.unjoined (.of_settles (settles_worldToLocal w e))
  | localToWorldPoint e v => exact h.unjoined (.of_settles (settles_localToWorldPoint w e v))
  | worldToLocalPoint e v => exact h.unjoined (.of_settles (settles_worldToLocalPoint w e v))
  | setParent e parent => exact h.unjoined (.of_onlyPlaces (onlyPlaces_setParent w e parent))
  | removeChild parent e => exact h.unjoined (.of_onlyPlaces (onlyPlaces_removeChild w parent e))
  | translate e offset space =>
    exact h.unjoined (.of_sameLinks (sameLinks_translate w e offset space))
  | rotate e rotation space =>
    exact h.unjoined (.of_sameLinks (sameLinks_rotate w e rotation space))
  | rotateAround e point rotation =>
    exact h.unjoined (.of_sameLinks (sameLinks_rotateAround w e point rotation))
  | invalidate e => exact h.unjoined (.of_settles (settles_invalidate w e))
  | changeAnchoring e change => exact h.unjoined (.changeAnchoring w e change)
  | worldRect e => exact h.unjoined (.of_settles (settles_worldRect w e))
  | rectContains e point => exact h.unjoined (.of_settles (settles_rectContains w e point))
  | setViewport viewport =>
    have resized : ({ w with viewport := some viewport } : World K B).Listed :=
      h.unjoined (.of_entities rfl rfl)
    exact resized.unjoined (.of_settles (AgreesOn.foldl settles_invalidate _))
  | snapshot => exact h.unjoined (.of_settles (settles_snapshot w))
  | _ =>
    refine h.unjoined (.of_sameScene (SameScene.apply w ?_))
    trivial

end Listed

end World

section Scenes

variable [Scalar K] [Behavior K B] {scope : Scope K B} {x y : Instant K B}

/-- No change breaks the list of actors. -/
theorem Change.listed (change : Change scope x y) (h : x.world.Listed) : y.world.Listed := by
  cases change with
  | edit x _ => exact h.apply x
  | record _ | dequeue | lend | restore _ => exact h.unjoined (.of_entities rfl rfl)
  | reclaim e => exact h.reclaim e
  | switch => exact h.unjoined (.of_sameScene (.modifyActor _ _ _))
  | enable => exact h.unjoined (.of_sameScene (.modifySlots _ _ _))
  | putOff | start =>
    exact h.unjoined ((World.Unjoined.of_sameScene (.modifySlots _ _ _)).trans (.record _ _))
  | resume =>
    refine h.unjoined (World.Unjoined.trans ?_ (.record _ _))
    exact (World.Unjoined.record _ _).trans (.of_sameScene (.modifySlots _ _ _))
  | finish =>
    exact h.unjoined ((World.Unjoined.record _ _).trans (.of_sameScene (.modifySlots _ _ _)))
  | vanish component =>
    have dropped : ∀ w : World K B, w.Unjoined (w.dropComponent component) := fun w =>
      .of_sameScene (.dropComponent w component)
    exact h.unjoined ((World.Unjoined.record _ _).trans (dropped _))

/-- The list of any scene names all actors there are, in the order of their creation. -/
theorem Reachable.listed {w : World K B} {scope : Scope K B} (behaved : scope.Behaved)
    (sent : ∀ dt, scope.hooks (.update dt) ∧ scope.hooks (.lateUpdate dt))
    (h : Reachable scope.fit w) : w.Listed := by
  exact h.changes behaved sent (I := fun y => y.world.Listed)
    (fun _ entities actors => .of_empty entities actors) Change.listed

end Scenes

end SheepScene
