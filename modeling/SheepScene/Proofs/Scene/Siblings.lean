import SheepScene.Proofs.Scene.Fostering

/-!
# Siblings in any scene

Nobody is among the children of two entities, nor twice among those of one, also where entities have
been dropped without the tree being brought up to date (`World.Apart`). Almost every change of the
tree only takes children away; the one that adds a child has taken it away elsewhere before.
-/

set_option autoImplicit false

namespace SheepScene

variable {K B : Type}

namespace World

/-- Every child is on one list of children, and is there once. -/
structure Apart (w : World K B) : Prop where
  nodup : ∀ p, (w.children p).Nodup
  one : ∀ e p q, e ∈ w.children p → e ∈ w.children q → p = q

/-- Leaving a parent takes nobody to the children of anybody. -/
theorem children_leave_sublist (w : World K B) (e x : EntityId) :
    ((w.leave e).children x).Sublist (w.children x) := by
  unfold leave
  split
  · rw [children_unlinkChild]
    split
    · exact List.filter_sublist
    · exact .refl _
  · exact .refl _

namespace Apart

variable {w w' : World K B}

/-- Fewer children stay apart. -/
theorem of_sublist (h : w.Apart) (fewer : ∀ p, (w'.children p).Sublist (w.children p)) :
    w'.Apart where
  nodup p := (h.nodup p).sublist (fewer p)
  one e p q child child' := h.one e p q ((fewer p).subset child) ((fewer q).subset child')

/-- Being apart depends only on the ties. -/
theorem congr (h : w.Apart) (ties : SameTies w w') : w'.Apart :=
  h.of_sublist fun p => by rw [ties.children]

/-- In an empty scene there are no siblings. -/
theorem of_empty (entities : w.entities = #[]) : w.Apart := by
  have childless : ∀ p, w.children p = [] := by
    intro p
    rw [children_eq, transform?, entity?, entities]
    rfl
  refine ⟨fun p => ?_, fun e p q child => ?_⟩
  · rw [childless]
    exact List.nodup_nil
  · rw [childless] at child
    cases child

/-! ## Changes of the tree -/

/-- An entity that is put under a parent is on no other list any more. -/
theorem setParent (h : w.Apart) (traceable : w.Traceable) (e : EntityId)
    (parent : Option EntityId) : (w.setParent e parent).2.Apart := by
  cases accepted : w.parentRefusal e parent with
  | some reason =>
    rw [World.setParent, accepted]
    exact h.congr (.of_sameLinks (AgreesOn.record w _))
  | none =>
    have place := ((parentRefusal_eq_none_iff w e parent).1 accepted).1
    have left : ∀ p, e ∉ (w.leave e).children p := fun p child =>
      (traceable.mem_children_leave child).2 place rfl
    have child : ∀ {x p}, x ∈ (w.setParent e parent).2.children p →
        (x ≠ e ∧ x ∈ w.children p) ∨ (x = e ∧ parent = some p) := by
      intro x p child
      rw [children_setParent accepted, List.mem_append] at child
      rcases child with stays | joins
      · refine .inl ⟨?_, (children_leave_sublist w e p).subset stays⟩
        rintro rfl
        exact left p stays
      · split at joins
        · rename_i new
          exact .inr ⟨List.mem_singleton.1 joins, new⟩
        · cases joins
    refine ⟨fun p => ?_, fun x p q hp hq => ?_⟩
    · rw [children_setParent accepted]
      have stay : ((w.leave e).children p).Nodup :=
        (h.nodup p).sublist (children_leave_sublist w e p)
      split
      · exact List.nodup_append'.2 ⟨stay, List.nodup_singleton e,
          List.disjoint_singleton.2 (left p)⟩
      · rwa [List.append_nil]
    · rcases child hp with ⟨other, before⟩ | ⟨rfl, new⟩
      · rcases child hq with ⟨-, before'⟩ | ⟨here, -⟩
        · exact h.one x p q before before'
        · exact absurd here other
      · rcases child hq with ⟨other, -⟩ | ⟨-, new'⟩
        · exact absurd rfl other
        · exact Option.some.inj (new.symm.trans new')

/-- Removing a child keeps siblings apart. -/
theorem removeChild (h : w.Apart) (traceable : w.Traceable) (parent e : EntityId) :
    (w.removeChild parent e).Apart := by
  unfold World.removeChild
  split
  · exact h.setParent traceable e none
  · exact h

/-- Creating an entity without ties keeps siblings apart. -/
theorem create (h : w.Apart) {entity : Entity K B}
    (free : ∀ t, entity.transform = some t → t.parent = none ∧ t.children = []) :
    (w.create entity).2.Apart :=
  h.of_sublist fun p => by rw [(links_create w free p).2]

/-- Spawning an actor keeps siblings apart. -/
theorem spawn (h : w.Apart) (traceable : w.Traceable) (spec : ActorSpec K) :
    (w.spawn spec).2.Apart := by
  have created : ∀ {entity : Entity K B},
      entity.transform = some (.ofParts spec.position spec.rotation spec.scale) →
      World.Traceable ({ (w.create entity).2 with
        roster := some ((w.create entity).2.actors ++ [(w.create entity).1]) } : World K B) ∧
      World.Apart ({ (w.create entity).2 with
        roster := some ((w.create entity).2.actors ++ [(w.create entity).1]) } : World K B) := by
    intro entity place
    have free : ∀ t, entity.transform = some t → t.parent = none ∧ t.children = [] := by
      intro t ht
      cases place.symm.trans ht
      exact ⟨rfl, rfl⟩
    exact ⟨(traceable.create free fun _ => by rw [place, Option.isSome_some]).congr
      (.of_entities rfl), (h.create free).congr (.of_entities rfl)⟩
  unfold World.spawn
  dsimp only
  split
  · exact (created rfl).2.setParent (created rfl).1 _ _
  · exact (created rfl).2

/-- Despawning keeps siblings apart. -/
theorem despawn (h : w.Apart) (e : EntityId) : (w.despawn e).2.Apart := by
  refine h.of_sublist fun p => ?_
  rw [children_eq, children_eq, transform?, transform?, entity?_despawn]
  split
  · exact List.nil_sublist _
  · exact .refl _

/-- Reclaiming keeps siblings apart. -/
theorem reclaim (h : w.Apart) (e : EntityId) : (w.reclaim e).Apart := by
  refine h.of_sublist fun p => ?_
  rw [children_reclaim, children_detach]
  split
  · exact List.nil_sublist _
  · exact children_leave_sublist w e p

/-! ## All changes -/

section Edits

variable [Scalar K] [Behavior K B]

/-- Every edit of a program keeps siblings apart. -/
theorem apply (h : w.Apart) (traceable : w.Traceable) (x : Edit K B) : (w.apply x).2.Apart := by
  cases x with
  | spawn spec => exact h.spawn traceable spec
  | spawnTransform position rotation scale =>
    refine h.create fun t ht => ?_
    cases ht
    exact ⟨rfl, rfl⟩
  | spawnBare => exact h.create fun t ht => nomatch ht
  | despawn e => exact h.despawn e
  | setParent e parent => exact h.setParent traceable e parent
  | removeChild parent e => exact h.removeChild traceable parent e
  | _ => exact h.congr (.apply w id)

end Edits

end Apart

end World

section Scenes

variable [Scalar K] [Behavior K B]

/-- No change puts anybody among the children of two entities. -/
theorem Change.apart {scope : Scope K B} {x y : Instant K B} (change : Change scope x y)
    (traceable : x.world.Traceable) (h : x.world.Apart) : y.world.Apart := by
  rcases change.ties with ties | ⟨e, reclaimed⟩ | ⟨edit, edited⟩
  · exact h.congr ties
  · exact reclaimed ▸ h.reclaim e
  · exact edited ▸ h.apply traceable edit

/-- At every instant of a scene siblings are apart. -/
theorem AtInstant.apart {w : World K B} (h : AtInstant w) : w.Apart :=
  (h.keeps (I := fun w => w.Traceable ∧ w.Apart)
    (fun _ entities _ => ⟨.of_empty entities, .of_empty entities⟩)
    fun change hx => ⟨change.traceable hx.1, change.apart hx.1 hx.2⟩).2

end Scenes

end SheepScene
