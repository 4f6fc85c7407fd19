import SheepScene.Proofs.Scene.Reentrancy

/-!
# Who is switched

Actors and components are switched on and off by requests of their own. Edits leave the switches
alone (`World.Unswitched.apply`): a component stays enabled or disabled and is told nothing, and the
own state of an actor changes at most when it is flagged for removal.
-/

set_option autoImplicit false

namespace SheepScene

variable {K B : Type}

namespace World

/-- Worlds in which actors have the same own states, but for those that have been flagged for
removal. Actors may have come or gone. -/
structure SameStates (w w' : World K B) : Prop where
  size : w.entities.size ≤ w'.entities.size
  state : ∀ e a', e.index < w.entities.size → w'.actor? e = some a' →
    ∃ a, w.actor? e = some a ∧ (a'.state = .destroyed ∨ a'.state = a.state)

namespace SameStates

variable {w w' w₁ : World K B}

/-- Actors that are as they were have the same states. -/
theorem of_actors (size : w.entities.size ≤ w'.entities.size)
    (actors : ∀ e a', e.index < w.entities.size → w'.actor? e = some a' → w.actor? e = some a') :
    SameStates w w' :=
  ⟨size, fun e a' known ha => ⟨a', actors e a' known ha, .inr rfl⟩⟩

/-- Having the same states is reflexive. -/
theorem refl (w : World K B) : SameStates w w :=
  of_actors (Nat.le_refl _) fun _ _ _ ha => ha

/-- Having the same states is transitive. -/
theorem trans (h : SameStates w w₁) (h' : SameStates w₁ w') : SameStates w w' := by
  refine ⟨Nat.le_trans h.size h'.size, fun e c known hc => ?_⟩
  obtain ⟨b, hb, later⟩ := h'.state e c (Nat.lt_of_lt_of_le known h.size) hc
  obtain ⟨a, ha, earlier⟩ := h.state e b known hb
  refine ⟨a, ha, later.elim .inl fun same => ?_⟩
  rw [same]
  exact earlier

/-- States depend on the entities alone. -/
theorem of_entities (entities : w'.entities = w.entities) : SameStates w w' := by
  refine of_actors (Nat.le_of_eq (by rw [entities])) fun e a' _ ha => ?_
  rwa [actor?, entity?, entities] at ha

/-- States do not depend on placements and links. -/
theorem of_onlyPlaces (h : OnlyPlaces w w') : SameStates w w' := by
  refine of_actors (Nat.le_of_eq h.size.symm) fun e a' _ ha => ?_
  rwa [h.actor?] at ha

/-- Queries keep states. -/
theorem of_settles (h : Settles w w') : SameStates w w' :=
  of_onlyPlaces h.sameLinks.onlyPlaces

/-- A change of an actor keeps states if it at most flags the actor. -/
theorem modifyActor (w : World K B) (e : EntityId) {f : Actor K → Actor K}
    (state : ∀ a, (f a).state = .destroyed ∨ (f a).state = a.state) :
    SameStates w (w.modifyActor e f) := by
  refine ⟨Nat.le_of_eq Array.size_modify.symm, fun x a' _ ha => ?_⟩
  rw [actor?_modifyActor] at ha
  split at ha
  · obtain ⟨a, before, rfl⟩ := Option.map_eq_some_iff.1 ha
    exact ⟨a, before, state a⟩
  · exact ⟨a', ha, .inr rfl⟩

/-- A change of slots keeps states. -/
theorem modifySlots (w : World K B) (e : EntityId) (f : Array (Slot K B) → Array (Slot K B)) :
    SameStates w (w.modifySlots e f) := by
  refine of_actors (Nat.le_of_eq Array.size_modify.symm) fun x a' _ ha => ?_
  rwa [actor?_modifySlots] at ha

/-- Many rounds keep states if every round does. -/
theorem foldl {β : Type} {f : World K B → β → World K B} (round : ∀ w b, SameStates w (f w b))
    (l : List β) (w : World K B) : SameStates w (l.foldl f w) := by
  induction l generalizing w with
  | nil => exact refl w
  | cons b l ih => exact (round w b).trans (ih (f w b))

/-- Creating an entity changes no state of those that were there. -/
theorem create (w : World K B) (entity : Entity K B) : SameStates w (w.create entity).2 := by
  refine of_actors ?_ fun e a' known ha => ?_
  · exact Nat.le_of_succ_le (Nat.le_of_eq (Array.size_push _).symm)
  · rwa [actor?, entity?_create, if_neg (Nat.ne_of_lt known)] at ha

/-- Spawning an actor changes no state of those that were there. -/
theorem spawn (w : World K B) (spec : ActorSpec K) : SameStates w (w.spawn spec).2 := by
  unfold World.spawn
  dsimp only
  split
  · refine trans ?_ (of_onlyPlaces (onlyPlaces_setParent _ _ _))
    exact (create w _).trans (of_entities rfl)
  · exact (create w _).trans (of_entities rfl)

/-- Despawning changes no state. -/
theorem despawn (w : World K B) (e : EntityId) : SameStates w (w.despawn e).2 := by
  refine of_actors (Nat.le_of_eq (size_despawn w e).symm) fun x a' _ ha => ?_
  rw [actor?, entity?_despawn] at ha
  split at ha
  · cases ha
  · exact ha

/-- Reclaiming changes no state. -/
theorem reclaim (w : World K B) (e : EntityId) : SameStates w (w.reclaim e) :=
  ((of_onlyPlaces (onlyPlaces_detach w e)).trans (despawn _ e)).trans (of_entities rfl)

variable [Scalar K] [Behavior K B]

/-- Edits of programs at most flag actors. -/
theorem apply (w : World K B) (x : Edit K B) : SameStates w (w.apply x).2 := by
  cases x with
  | spawn spec => exact spawn w spec
  | spawnTransform | spawnBare => exact create w _
  | despawn e => exact despawn w e
  | setTimeScale e scale => exact modifyActor w e fun _ => .inr rfl
  | setUpdateEnabled e enabled => exact modifyActor w e fun _ => .inr rfl
  | destroy e => exact foldl (fun w e => modifyActor w e fun _ => .inl rfl) _ w
  | add e component =>
    change SameStates w (w.addComponent e component).2
    unfold addComponent
    split
    · exact modifySlots w e _
    · exact of_entities (by rw [dropComponent_eq]; rfl)
  | retarget e target duration done =>
    change SameStates w (w.retarget e target duration done).2
    rcases w.retarget_cases e target duration done with same | ⟨index, m, -, -, moved⟩
    · rw [same]
      exact refl w
    · rw [moved]
      have dropped : SameStates w (w.dropComponent (.mover m)) :=
        of_entities (by rw [dropComponent_eq])
      exact dropped.trans (modifySlots _ e _)
  | changeAnchoring e change =>
    change SameStates w (w.changeAnchoring e change)
    unfold changeAnchoring
    split
    · refine trans (of_actors (Nat.le_of_eq Array.size_modify.symm) fun x a' _ ha => ?_)
        (of_settles (settles_invalidate _ e))
      rw [actor?, entity?_modifyEntity] at ha
      split at ha
      · rwa [Option.bind_map] at ha
      · exact ha
    · exact of_entities rfl
  | setViewport viewport =>
    have resized : SameStates w { w with viewport := some viewport } := of_entities rfl
    exact resized.trans (foldl (fun w e => of_settles (settles_invalidate w e)) _ _)
  | send e action =>
    change SameStates w (w.send e action).2
    unfold send
    split
    · exact refl w
    · exact of_entities rfl
  | issueWait | nameWait | completeWait | tick | setClockScale | publishListener | draw =>
    exact of_entities rfl
  | _ => exact of_onlyPlaces (onlyPlaces_apply w trivial)

end SameStates

/-- Changes that leave all switches alone. A component that is still there is enabled if it was, and
there is a listener in its slot if there was one. -/
structure Unswitched (w w' : World K B) : Prop extends Undisturbed w w' where
  states : SameStates w w'
  same : ∀ (x : EntityId × Nat) slot slot', w.slot? x.1 x.2 = some slot →
    w'.slot? x.1 x.2 = some slot' → slot'.enabled = slot.enabled ∧
      (slot'.component = some .listener ↔ slot.component = some .listener)

namespace Unswitched

variable {w w' : World K B}

/-- Where states and slots are kept no switch is turned. -/
theorem of_slots (undisturbed : Undisturbed w w') (states : SameStates w w')
    (slots : ∀ (x : EntityId × Nat) slot slot', w.slot? x.1 x.2 = some slot →
      w'.slot? x.1 x.2 = some slot' → slot' = slot) : Unswitched w w' := by
  refine ⟨undisturbed, states, fun x slot slot' hslot hslot' => ?_⟩
  rw [slots x slot slot' hslot hslot']
  exact ⟨rfl, .rfl⟩

/-- Where entities are the same no switch is turned. -/
theorem of_entities (entities : w'.entities = w.entities) : Unswitched w w' := by
  refine of_slots (.of_entities entities) (.of_entities entities)
    fun x slot slot' hslot hslot' => ?_
  rw [slot?, slots?, entity?, entities] at hslot'
  exact Option.some.inj (hslot'.symm.trans hslot)

/-- Reclaiming an entity turns no switch. -/
theorem reclaim (w : World K B) (e : EntityId) : Unswitched w (w.reclaim e) := by
  refine of_slots (.reclaim w e) (.reclaim w e) fun x slot slot' hslot hslot' => ?_
  rw [slot?, slots?, entity?_reclaim] at hslot'
  split at hslot'
  · cases hslot'
  · change (w.detach e).slot? x.1 x.2 = some slot' at hslot'
    rw [slot?, (onlyPlaces_detach w e).slots?] at hslot'
    exact Option.some.inj (hslot'.symm.trans hslot)

variable [Scalar K] [Behavior K B]

/-- No edit of a program turns a switch. -/
theorem apply (w : World K B) (x : Edit K B) : Unswitched w (w.apply x).2 := by
  have undisturbed := Undisturbed.apply w x
  have states := SameStates.apply w x
  have created : ∀ {entity : Entity K B}, (x : EntityId × Nat) → ∀ {slot slot'},
      w.slot? x.1 x.2 = some slot → (w.create entity).2.slot? x.1 x.2 = some slot' →
      slot' = slot := by
    intro entity x slot slot' hslot hslot'
    have known := index_lt_of_slot? hslot
    rw [slot?, slots?, entity?_create, if_neg (Nat.ne_of_lt known)] at hslot'
    exact Option.some.inj (hslot'.symm.trans hslot)
  cases x with
  | spawn spec =>
    refine of_slots undisturbed states fun x slot slot' hslot hslot' => ?_
    change (w.spawn spec).2.slot? x.1 x.2 = some slot' at hslot'
    unfold World.spawn at hslot'
    dsimp only at hslot'
    split at hslot'
    · rw [slot?, (onlyPlaces_setParent _ _ _).slots?] at hslot'
      exact created x hslot hslot'
    · exact created x hslot hslot'
  | spawnTransform | spawnBare =>
    exact of_slots undisturbed states fun x _ _ hslot hslot' => created x hslot hslot'
  | despawn e =>
    refine of_slots undisturbed states fun x slot slot' hslot hslot' => ?_
    change (w.despawn e).2.slot? x.1 x.2 = some slot' at hslot'
    rw [slot?, slots?, entity?_despawn] at hslot'
    split at hslot'
    · cases hslot'
    · exact Option.some.inj (hslot'.symm.trans hslot)
  | add e component =>
    refine of_slots undisturbed states fun x slot slot' hslot hslot' => ?_
    change (w.addComponent e component).2.slot? x.1 x.2 = some slot' at hslot'
    unfold addComponent at hslot'
    split at hslot'
    · rename_i slots hslots
      rw [slot?_push hslots] at hslot'
      split at hslot'
      · rename_i here
        subst here
        rw [slot?, hslots, Option.bind_some, Array.getElem?_size] at hslot
        cases hslot
      · exact Option.some.inj (hslot'.symm.trans hslot)
    · rw [dropComponent_eq] at hslot'
      exact Option.some.inj (hslot'.symm.trans hslot)
  | retarget e target duration done =>
    refine ⟨undisturbed, states, fun x slot slot' hslot hslot' => ?_⟩
    change (w.retarget e target duration done).2.slot? x.1 x.2 = some slot' at hslot'
    rcases w.retarget_cases e target duration done with same | ⟨index, m, -, hcell, moved⟩
    · rw [same] at hslot'
      cases hslot'.symm.trans hslot
      exact ⟨rfl, .rfl⟩
    · rw [moved, slot?_modifySlot, dropComponent_eq] at hslot'
      split at hslot'
      · rename_i here
        subst here
        obtain ⟨before, hbefore, rfl⟩ := Option.map_eq_some_iff.1 hslot'
        cases hbefore.symm.trans hslot
        obtain ⟨slot, hslot, hcomponent⟩ := Option.map_eq_some_iff.1 hcell
        cases hbefore.symm.trans hslot
        rw [hcomponent]
        exact ⟨rfl, by simp⟩
      · cases hslot'.symm.trans hslot
        exact ⟨rfl, .rfl⟩
  | issueWait => exact of_entities rfl
  | _ =>
    refine of_slots undisturbed states fun x slot slot' hslot hslot' => ?_
    rw [slot?, (SameSlots.apply w ?_).slots] at hslot'
    · exact Option.some.inj (hslot'.symm.trans hslot)
    · trivial

end Unswitched

end World

end SheepScene
