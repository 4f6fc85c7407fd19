import SheepScene.Proofs.Scene.Cells
import SheepScene.Scene.Perform

/-!
# What a scene never takes back

A number is not given out again, so an entity that has been dropped stays away. An entity stays an
actor or none, a destroyed actor is never in another state again, and an actor never loses a
component (`World.Precedes`). Nothing that changes a scene breaks this, whatever programs are like:
neither edits (`World.precedes_apply`) nor switching, moving components out of their slots and back,
or the sweep.
-/

set_option autoImplicit false

namespace SheepScene

variable {K B : Type}

/-- An entity and what may become of it while it is there. -/
structure Entity.Precedes (x y : Entity K B) : Prop where
  actor : y.actor.isSome = x.actor.isSome
  destroyed : ∀ a b, x.actor = some a → a.state = .destroyed → y.actor = some b →
    b.state = .destroyed
  slots : ∀ slots, x.slots = some slots →
    ∃ slots', y.slots = some slots' ∧ slots.size ≤ slots'.size

namespace Entity.Precedes

/-- An entity may stay as it is. -/
theorem refl (x : Entity K B) : x.Precedes x where
  actor := rfl
  destroyed a b ha h hb := by
    cases ha.symm.trans hb
    exact h
  slots slots h := ⟨slots, h, Nat.le_refl _⟩

/-- What may become of an entity is transitive. -/
theorem trans {x y z : Entity K B} (h : x.Precedes y) (h' : y.Precedes z) : x.Precedes z where
  actor := h'.actor.trans h.actor
  destroyed a c ha hstate hc := by
    have between : y.actor.isSome := by rw [h.actor, ha, Option.isSome_some]
    obtain ⟨b, hb⟩ := Option.isSome_iff_exists.1 between
    exact h'.destroyed b c hb (h.destroyed a b ha hstate hb) hc
  slots slots hslots := by
    obtain ⟨slots₁, hslots₁, le⟩ := h.slots slots hslots
    obtain ⟨slots₂, hslots₂, le'⟩ := h'.slots slots₁ hslots₁
    exact ⟨slots₂, hslots₂, Nat.le_trans le le'⟩

end Entity.Precedes

namespace World

/-- A world and what may become of it: there may be more entities; one that was there may have gone,
and one that had gone is not there again. -/
structure Precedes (w w' : World K B) : Prop where
  size : w.entities.size ≤ w'.entities.size
  entity : ∀ e, e.index < w.entities.size → ∀ y, w'.entity? e = some y →
    ∃ x, w.entity? e = some x ∧ x.Precedes y

namespace Precedes

variable {w w' w₁ : World K B}

/-- A world may stay as it is. -/
theorem refl (w : World K B) : Precedes w w :=
  ⟨Nat.le_refl _, fun _ _ y hy => ⟨y, hy, .refl y⟩⟩

/-- What may become of a world is transitive. -/
theorem trans (h : Precedes w w₁) (h' : Precedes w₁ w') : Precedes w w' := by
  refine ⟨Nat.le_trans h.size h'.size, fun e he z hz => ?_⟩
  obtain ⟨y, hy, after⟩ := h'.entity e (Nat.lt_of_lt_of_le he h.size) z hz
  obtain ⟨x, hx, before⟩ := h.entity e he y hy
  exact ⟨x, hx, before.trans after⟩

/-- Everything but the entities may change. -/
theorem of_entities (entities : w'.entities = w.entities) : Precedes w w' := by
  refine ⟨Nat.le_of_eq (by rw [entities]), fun e _ y hy => ⟨y, ?_, .refl y⟩⟩
  unfold entity? at hy ⊢
  rwa [← entities]

/-- Moving placements and links leads to a later world. -/
theorem of_onlyPlaces (h : OnlyPlaces w w') : Precedes w w' := by
  refine ⟨Nat.le_of_eq h.size.symm, fun e _ y hy => ?_⟩
  have same := h.entity e
  rw [hy] at same
  obtain ⟨x, hx, hview⟩ := Option.map_eq_some_iff.1 same.symm
  simp only [Entity.unplaced, Prod.mk.injEq] at hview
  obtain ⟨actor, -, slots, -⟩ := hview
  refine ⟨x, hx, by rw [actor], fun a b ha hstate hb => ?_, fun s hs => ⟨s, ?_, Nat.le_refl _⟩⟩
  · rw [actor, hb] at ha
    cases ha
    exact hstate
  · rw [← slots, hs]

/-- Asking leads to a later world. -/
theorem of_settles (h : Settles w w') : Precedes w w' :=
  of_onlyPlaces h.sameLinks.onlyPlaces

/-- Changing an entity into what may become of it leads to a later world. -/
theorem modifyEntity {e : EntityId} {f : Entity K B → Entity K B}
    (h : ∀ x, w.entity? e = some x → x.Precedes (f x)) : Precedes w (w.modifyEntity e f) := by
  refine ⟨Nat.le_of_eq Array.size_modify.symm, fun x _ y hy => ?_⟩
  rw [entity?_modifyEntity] at hy
  split at hy
  · rename_i here
    subst here
    obtain ⟨entity, hentity, rfl⟩ := Option.map_eq_some_iff.1 hy
    exact ⟨entity, hentity, h entity hentity⟩
  · exact ⟨y, hy, .refl y⟩

/-- An actor may change as long as it is not brought back to life. -/
theorem modifyActor {e : EntityId} {f : Actor K → Actor K}
    (h : ∀ a, w.actor? e = some a → a.state = .destroyed → (f a).state = .destroyed) :
    Precedes w (w.modifyActor e f) := by
  refine modifyEntity fun x hx => ⟨Option.isSome_map, fun a b ha hstate hb => ?_,
    fun slots hslots => ⟨slots, hslots, Nat.le_refl _⟩⟩
  rw [ha] at hb
  cases hb
  exact h a (by rw [actor?, hx, Option.bind_some, ha]) hstate

/-- Components may change and come to an actor. -/
theorem modifySlots {e : EntityId} {f : Array (Slot K B) → Array (Slot K B)}
    (h : ∀ slots, slots.size ≤ (f slots).size) : Precedes w (w.modifySlots e f) := by
  refine modifyEntity fun x _ => ⟨rfl, fun a b ha hstate hb => ?_, fun slots hslots => ?_⟩
  · cases ha.symm.trans hb
    exact hstate
  · exact ⟨f slots, by rw [hslots, Option.map_some], h slots⟩

/-- Changing a slot leads to a later world. -/
theorem modifySlot (w : World K B) (e : EntityId) (index : Nat) (f : Slot K B → Slot K B) :
    Precedes w (w.modifySlot e index f) :=
  modifySlots fun _ => Nat.le_of_eq Array.size_modify.symm

/-- Writing into the journal leads to a later world. -/
theorem record (w : World K B) (event : Event K B) : Precedes w (w.record event) :=
  of_entities rfl

/-- Many rounds lead to a later world if every round does. -/
theorem foldl {β : Type} {f : World K B → β → World K B} (round : ∀ w b, Precedes w (f w b))
    (l : List β) (w : World K B) : Precedes w (l.foldl f w) := by
  induction l generalizing w with
  | nil => exact refl w
  | cons b l ih => exact (round w b).trans (ih (f w b))

/-- Creating an entity leads to a later world. -/
theorem create (w : World K B) (entity : Entity K B) : Precedes w (w.create entity).2 := by
  refine ⟨?_, fun e he y hy => ⟨y, ?_, .refl y⟩⟩
  · exact Nat.le_of_succ_le (Nat.le_of_eq (Array.size_push _).symm)
  · rwa [entity?_create, if_neg (Nat.ne_of_lt he)] at hy

/-- Dropping a component leads to a later world. -/
theorem dropComponent (w : World K B) (c : Component K B) : Precedes w (w.dropComponent c) :=
  of_entities (by rw [dropComponent_eq])

/-- Despawning leads to a later world. -/
theorem despawn (w : World K B) (e : EntityId) : Precedes w (w.despawn e).2 := by
  refine ⟨Nat.le_of_eq (size_despawn w e).symm, fun x _ y hy => ?_⟩
  rw [entity?_despawn] at hy
  split at hy
  · cases hy
  · exact ⟨y, hy, .refl y⟩

/-- Reclaiming leads to a later world. -/
theorem reclaim (w : World K B) (e : EntityId) : Precedes w (w.reclaim e) := by
  have detached : Precedes w (w.detach e) := of_onlyPlaces (onlyPlaces_detach w e)
  exact (detached.trans (despawn _ e)).trans (of_entities rfl)

/-- Marking as destroyed leads to a later world. -/
theorem destroy (w : World K B) (e : EntityId) : Precedes w (w.destroy e) :=
  foldl (fun _ _ => modifyActor fun _ _ _ => rfl) _ w

/-- Switching an actor on or off leaves destroyed actors alone. -/
theorem switch {e : EntityId} {a : Actor K} {state : ActorState} {active : Bool}
    (ha : w.actor? e = some a) (hstate : SceneM.switched a.state active = some state) :
    Precedes w (w.modifyActor e fun a => { a with state }) := by
  refine modifyActor fun b hb destroyed => ?_
  cases ha.symm.trans hb
  exact absurd destroyed (SceneM.switched_eq_some hstate).2

/-- Spawning leads to a later world. -/
theorem spawn (w : World K B) (spec : ActorSpec K) : Precedes w (w.spawn spec).2 := by
  unfold World.spawn
  dsimp only
  split
  · refine Precedes.trans ?_ (of_onlyPlaces (onlyPlaces_setParent _ _ _))
    exact (create w _).trans (of_entities rfl)
  · exact (create w _).trans (of_entities rfl)

/-! ## Reading -/

/-- An entity that is there was there before, unless it is new. -/
theorem entity?_isSome (h : Precedes w w') {e : EntityId} (he : e.index < w.entities.size)
    (there : (w'.entity? e).isSome) : (w.entity? e).isSome := by
  obtain ⟨y, hy⟩ := Option.isSome_iff_exists.1 there
  obtain ⟨x, hx, -⟩ := h.entity e he y hy
  rw [hx, Option.isSome_some]

/-- What has gone stays away. -/
theorem gone (h : Precedes w w') {e : EntityId} (he : e.index < w.entities.size)
    (gone : w.entity? e = none) : w'.entity? e = none := by
  by_contra there
  have before := h.entity?_isSome he (Option.isSome_iff_ne_none.2 there)
  rw [gone] at before
  cases before

/-- An entity that is there is an actor if and only if it was one before. -/
theorem actor?_isSome (h : Precedes w w') {e : EntityId} (he : e.index < w.entities.size)
    (there : (w'.entity? e).isSome) : (w'.actor? e).isSome = (w.actor? e).isSome := by
  obtain ⟨y, hy⟩ := Option.isSome_iff_exists.1 there
  obtain ⟨x, hx, after⟩ := h.entity e he y hy
  rw [actor?, actor?, hy, hx, Option.bind_some, Option.bind_some, after.actor]

/-- An actor that was destroyed is destroyed if it is still there. -/
theorem destroyed (h : Precedes w w') {e : EntityId} {a b : Actor K} (ha : w.actor? e = some a)
    (hstate : a.state = .destroyed) (hb : w'.actor? e = some b) : b.state = .destroyed := by
  obtain ⟨x, hx, hxa⟩ := Option.bind_eq_some_iff.1 ha
  obtain ⟨y, hy, hyb⟩ := Option.bind_eq_some_iff.1 hb
  obtain ⟨x', hx', after⟩ := h.entity e (index_lt_of_entity? hx) y hy
  cases hx.symm.trans hx'
  exact after.destroyed a b hxa hstate hyb

/-- An entity that is still there has all the components that it had. -/
theorem componentCount_le (h : Precedes w w') {e : EntityId} (there : (w'.entity? e).isSome) :
    w.componentCount e ≤ w'.componentCount e := by
  obtain ⟨y, hy⟩ := Option.isSome_iff_exists.1 there
  unfold componentCount
  split
  · rename_i slots hslots
    obtain ⟨x, hx, hxs⟩ := Option.bind_eq_some_iff.1 hslots
    obtain ⟨x', hx', after⟩ := h.entity e (index_lt_of_entity? hx) y hy
    cases hx.symm.trans hx'
    obtain ⟨slots', hslots', le⟩ := after.slots slots hxs
    rw [slots?, hy, Option.bind_some, hslots']
    exact le
  · exact Nat.zero_le _

/-- A component is still on its actor if the actor is still there. -/
theorem slot?_isSome (h : Precedes w w') {e : EntityId} {index : Nat}
    (there : (w'.entity? e).isSome) (hslot : (w.slot? e index).isSome) :
    (w'.slot? e index).isSome := by
  obtain ⟨y, hy⟩ := Option.isSome_iff_exists.1 there
  obtain ⟨slot, hslot⟩ := Option.isSome_iff_exists.1 hslot
  obtain ⟨slots, hslots, hindex⟩ := Option.bind_eq_some_iff.1 hslot
  obtain ⟨x, hx, hxs⟩ := Option.bind_eq_some_iff.1 hslots
  obtain ⟨x', hx', after⟩ := h.entity e (index_lt_of_entity? hx) y hy
  cases hx.symm.trans hx'
  obtain ⟨slots', hslots', le⟩ := after.slots slots hxs
  obtain ⟨inside, -⟩ := Array.getElem?_eq_some_iff.1 hindex
  rw [slot?, slots?, hy, Option.bind_some, hslots', Option.bind_some,
    Array.getElem?_eq_getElem (Nat.lt_of_lt_of_le inside le), Option.isSome_some]

end Precedes

/-- No edit takes anything back. -/
theorem precedes_apply [Scalar K] [Behavior K B] (w : World K B) (x : Edit K B) :
    Precedes w (w.apply x).2 := by
  cases x with
  | spawn spec => exact .spawn w spec
  | spawnTransform | spawnBare => exact .create w _
  | despawn e => exact .despawn w e
  | setTimeScale e scale => exact .modifyActor fun _ _ h => h
  | setUpdateEnabled e enabled => exact .modifyActor fun _ _ h => h
  | destroy e => exact .destroy w e
  | add e component =>
    change Precedes w (w.addComponent e component).2
    unfold addComponent
    split
    · exact .modifySlots fun slots => Nat.le_of_succ_le (Nat.le_of_eq (Array.size_push _).symm)
    · exact (Precedes.record w _).trans (.dropComponent _ component)
  | retarget e target duration done =>
    change Precedes w (w.retarget e target duration done).2
    rcases w.retarget_cases e target duration done with same | ⟨index, m, -, -, moved⟩
    · rw [same]
      exact .refl w
    · rw [moved]
      exact (Precedes.dropComponent w _).trans (.modifySlot _ e index _)
  | changeAnchoring e change =>
    change Precedes w (w.changeAnchoring e change)
    unfold changeAnchoring
    split
    · refine Precedes.trans ?_ (.of_settles (settles_invalidate _ e))
      exact .modifyEntity fun x _ => ⟨rfl, (Entity.Precedes.refl x).destroyed,
        (Entity.Precedes.refl x).slots⟩
    · exact .record w _
  | setViewport viewport =>
    have resized : Precedes w { w with viewport := some viewport } := .of_entities rfl
    exact resized.trans (.foldl (fun w e => .of_settles (settles_invalidate w e)) _ _)
  | send e action =>
    change Precedes w (w.send e action).2
    unfold send
    split
    · exact .refl w
    · exact .of_entities rfl
  | issueWait | nameWait | completeWait | tick | setClockScale | publishListener | draw =>
    exact .of_entities rfl
  | _ => exact .of_onlyPlaces (onlyPlaces_apply w trivial)

end World

end SheepScene
