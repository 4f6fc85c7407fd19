import SheepScene.Proofs.Scene.Moments

/-!
# Parents and their children in any scene

Whoever is among the children of an entity has it as its parent, in any scene
(`World.Traceable`). Here is the converse: a parent that has a place has the child on its list, also
where other entities have been dropped without the tree being brought up to date
(`World.Fostered`). Numbers are not given out twice, so that a link to an entity that has gone never
comes to mean another one.
-/

set_option autoImplicit false

namespace SheepScene

variable {K B : Type}

namespace World

/-- Parents with a place have their children on their lists, and parents are entities that there
have been. -/
structure Fostered (w : World K B) : Prop where
  child : ∀ e p, w.parent? e = some p → (w.transform? p).isSome → e ∈ w.children p
  known : ∀ e p, w.parent? e = some p → p.index < w.entities.size

/-- Others stay among the children when an entity leaves its parent. -/
theorem mem_children_leave_of_ne {w : World K B} {e x p : EntityId} (child : x ∈ w.children p)
    (other : x ≠ e) : x ∈ (w.leave e).children p := by
  unfold leave
  split
  · rw [children_unlinkChild]
    split
    · exact List.mem_filter.2 ⟨child, bne_iff_ne.2 other⟩
    · exact child
  · exact child

namespace Fostered

variable {w w' : World K B}

/-- Being fostered depends only on the ties. -/
theorem congr (h : w.Fostered) (ties : SameTies w w') : w'.Fostered where
  child e p up place := by
    rw [ties.parents] at up
    rw [ties.places] at place
    rw [ties.children]
    exact h.child e p up place
  known e p up := by
    rw [ties.parents] at up
    rw [ties.size]
    exact h.known e p up

/-- In an empty scene nobody has a parent. -/
theorem of_empty (entities : w.entities = #[]) : w.Fostered := by
  have orphans : ∀ e, w.parent? e = none := by
    intro e
    rw [parent?, transform?, entity?, entities]
    rfl
  refine ⟨fun e p up => ?_, fun e p up => ?_⟩
  · rw [orphans] at up
    cases up
  · rw [orphans] at up
    cases up

/-! ## Changes of the tree -/

/-- Reparenting, refused or not, leaves everybody fostered. -/
theorem setParent (h : w.Fostered) (e : EntityId) (parent : Option EntityId) :
    (w.setParent e parent).2.Fostered := by
  have only := onlyPlaces_setParent w e parent
  cases accepted : w.parentRefusal e parent with
  | some reason =>
    rw [World.setParent, accepted]
    exact h.congr (.of_sameLinks (AgreesOn.record w _))
  | none =>
    obtain ⟨-, fine⟩ := (parentRefusal_eq_none_iff w e parent).1 accepted
    refine ⟨fun x p up place => ?_, fun x p up => ?_⟩
    · rw [only.isSome_transform?] at place
      rw [parent?_setParent accepted] at up
      rw [children_setParent accepted, List.mem_append]
      split at up
      · rename_i here
        rw [if_pos up, here]
        exact .inr (List.mem_singleton_self e)
      · rename_i other
        exact .inl (mem_children_leave_of_ne (h.child x p up place) other)
    · rw [only.size]
      rw [parent?_setParent accepted] at up
      split at up
      · exact index_lt_of_transform? (fine p up).1
      · exact h.known x p up

/-- Removing a child leaves everybody fostered. -/
theorem removeChild (h : w.Fostered) (parent e : EntityId) :
    (w.removeChild parent e).Fostered := by
  unfold World.removeChild
  split
  · exact h.setParent e none
  · exact h

/-- Creating an entity without ties leaves everybody fostered. -/
theorem create (h : w.Fostered) {entity : Entity K B}
    (free : ∀ t, entity.transform = some t → t.parent = none ∧ t.children = []) :
    (w.create entity).2.Fostered := by
  have links := links_create w free
  have size : (w.create entity).2.entities.size = w.entities.size + 1 := Array.size_push _
  refine ⟨fun e p up place => ?_, fun e p up => ?_⟩
  · rw [(links e).1] at up
    rw [(links p).2]
    rw [transform?, entity?_create, if_neg (Nat.ne_of_lt (h.known e p up))] at place
    exact h.child e p up place
  · rw [(links e).1] at up
    rw [size]
    exact Nat.lt_succ_of_lt (h.known e p up)

/-- Spawning an actor leaves everybody fostered. -/
theorem spawn (h : w.Fostered) (spec : ActorSpec K) : (w.spawn spec).2.Fostered := by
  have created : ∀ {entity : Entity K B},
      entity.transform = some (.ofParts spec.position spec.rotation spec.scale) →
      ({ (w.create entity).2 with
        roster := some ((w.create entity).2.actors ++ [(w.create entity).1]) } :
          World K B).Fostered := by
    intro entity place
    have joined : (w.create entity).2.Fostered := by
      refine h.create fun t ht => ?_
      cases place.symm.trans ht
      exact ⟨rfl, rfl⟩
    exact joined.congr (.of_entities rfl)
  unfold World.spawn
  dsimp only
  split
  · exact (created rfl).setParent _ _
  · exact created rfl

/-- Nobody else loses a child when an entity is dropped. -/
theorem despawn (h : w.Fostered) (e : EntityId) : (w.despawn e).2.Fostered := by
  have left : ∀ {x}, ((w.despawn e).2.transform? x).isSome →
      (w.despawn e).2.transform? x = w.transform? x := by
    intro x place
    rw [transform?, entity?_despawn] at place ⊢
    split at place
    · cases place
    · rename_i other
      rw [if_neg other]
      rfl
  have up : ∀ {x p}, (w.despawn e).2.parent? x = some p → w.parent? x = some p := by
    intro x p up
    rwa [parent?, left (transform?_of_above up)] at up
  refine ⟨fun x p above place => ?_, fun x p above => ?_⟩
  · rw [children_eq, left place, ← children_eq]
    rw [left place] at place
    exact h.child x p (up above) place
  · rw [size_despawn]
    exact h.known x p (up above)

/-- Detaching an entity leaves everybody fostered. -/
theorem detach (h : w.Fostered) (e : EntityId) : (w.detach e).Fostered := by
  have only := onlyPlaces_detach w e
  refine ⟨fun x p up place => ?_, fun x p up => ?_⟩
  · rw [only.isSome_transform?] at place
    rw [parent?_detach] at up
    split at up
    · cases up
    · rename_i apart
      have before := h.child x p up place
      rw [children_detach, if_neg]
      · exact mem_children_leave_of_ne before fun here => apart (.inl here)
      · rintro rfl
        exact apart (.inr before)
  · rw [only.size]
    exact h.known x p (above_detach_le w e x p up)

/-- Reclaiming an entity leaves everybody fostered. -/
theorem reclaim (h : w.Fostered) (e : EntityId) : (w.reclaim e).Fostered :=
  ((h.detach e).despawn e).congr (.of_entities rfl)

/-! ## All changes -/

section Edits

variable [Scalar K] [Behavior K B]

/-- Every edit of a program leaves everybody fostered. -/
theorem apply (h : w.Fostered) (x : Edit K B) : (w.apply x).2.Fostered := by
  cases x with
  | spawn spec => exact h.spawn spec
  | spawnTransform position rotation scale =>
    refine h.create fun t ht => ?_
    cases ht
    exact ⟨rfl, rfl⟩
  | spawnBare => exact h.create fun t ht => nomatch ht
  | despawn e => exact h.despawn e
  | setParent e parent => exact h.setParent e parent
  | removeChild parent e => exact h.removeChild parent e
  | _ => exact h.congr (.apply w id)

end Edits

end Fostered

end World

section Scenes

variable [Scalar K] [Behavior K B]

/-- No change has a parent lose a child that has it as its parent. -/
theorem Change.fostered {scope : Scope K B} {x y : Instant K B} (change : Change scope x y)
    (h : x.world.Fostered) : y.world.Fostered := by
  rcases change.ties with ties | ⟨e, reclaimed⟩ | ⟨edit, edited⟩
  · exact h.congr ties
  · exact reclaimed ▸ h.reclaim e
  · exact edited ▸ h.apply edit

/-- At every instant of a scene everybody is fostered. -/
theorem AtInstant.fostered {w : World K B} (h : AtInstant w) : w.Fostered :=
  h.keeps (fun _ entities _ => .of_empty entities) Change.fostered

end Scenes

end SheepScene
