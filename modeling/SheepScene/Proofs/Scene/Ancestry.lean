import SheepScene.Proofs.Scene.Invalidation
import SheepScene.Proofs.Scene.Listing

/-!
# Lineages in any scene

An entity can be dropped without the tree being brought up to date, so that links may lead to
nothing. What remains true of all scenes is that a child knows its parent as long as it has a place,
and that links form no cycle (`World.Traceable`). Hence the lineage of an entity is complete, and
taking an actor out of the scene leaves all those alone above whom it does not stand
(`World.Traceable.lineage_reclaim`, `World.Traceable.transform?_reclaim`).
-/

set_option autoImplicit false

namespace SheepScene

variable {K B : Type}

/-- Edits with which entities come or go or are linked anew. -/
def Edit.Relinks : Edit K B → Prop
  | .spawn _ | .spawnTransform .. | .spawnBare | .despawn _ | .setParent .. | .removeChild .. =>
    True
  | _ => False

namespace World

/-- Whoever is among the children of an entity and has a place has the entity as its parent, links
form no cycle, and all actors have a place. -/
structure Traceable (w : World K B) : Prop where
  parent : ∀ e p, e ∈ w.children p → (w.transform? e).isSome → w.parent? e = some p
  known : ∀ e p, e ∈ w.children p → e.index < w.entities.size
  acyclic : ∀ e, ¬ Relation.TransGen w.Above e e
  placed : ∀ e, (w.actor? e).isSome → (w.transform? e).isSome

/-- Worlds with the same links between the same places and actors. -/
structure SameTies (w w' : World K B) : Prop where
  size : w'.entities.size = w.entities.size
  parents : ∀ e, w'.parent? e = w.parent? e
  children : ∀ e, w'.children e = w.children e
  places : ∀ e, (w'.transform? e).isSome = (w.transform? e).isSome
  actors : ∀ e, (w'.actor? e).isSome = (w.actor? e).isSome

namespace SameTies

variable {w w' w₁ : World K B}

/-- Having the same ties is transitive. -/
theorem trans (h : SameTies w w₁) (h' : SameTies w₁ w') : SameTies w w' where
  size := h'.size.trans h.size
  parents e := (h'.parents e).trans (h.parents e)
  children e := (h'.children e).trans (h.children e)
  places e := (h'.places e).trans (h.places e)
  actors e := (h'.actors e).trans (h.actors e)

/-- Whatever keeps the links keeps the ties. -/
theorem of_sameLinks (h : SameLinks w w') : SameTies w w' where
  size := h.size
  parents := h.parent?
  children := h.children
  places := h.onlyPlaces.isSome_transform?
  actors e := by rw [h.onlyPlaces.actor? e]

/-- Queries keep the ties. -/
theorem of_settles (h : Settles w w') : SameTies w w' :=
  of_sameLinks h.sameLinks

/-- Whatever leaves the scene the same keeps the ties. -/
theorem of_sameScene (h : SameScene w w') : SameTies w w' where
  size := h.size
  parents e := by rw [parent?, h.transform?]; rfl
  children e := by rw [children_eq, h.transform?, ← children_eq]
  places e := by rw [h.transform?]
  actors := h.isSome_actor?

/-- Scenes with the same entities have the same ties. -/
theorem of_entities (entities : w'.entities = w.entities) : SameTies w w' := by
  have entity : ∀ e, w'.entity? e = w.entity? e := by
    intro e
    rw [entity?, entities]
    rfl
  refine ⟨by rw [entities], fun e => ?_, fun e => ?_, fun e => ?_, fun e => ?_⟩
  · rw [parent?, transform?, entity]
    rfl
  · rw [children_eq, children_eq, transform?, entity]
    rfl
  · rw [transform?, entity]
    rfl
  · rw [actor?, entity]
    rfl

/-- Changing an anchoring keeps the ties. -/
theorem changeAnchoring (w : World K B) (e : EntityId) (change : AnchoringChange K) [Scalar K] :
    SameTies w (w.changeAnchoring e change) := by
  unfold World.changeAnchoring
  split
  · refine trans ?_ (of_settles (settles_invalidate _ e))
    have transforms : ∀ x, (w.modifyEntity e fun entity =>
        { entity with anchoring := entity.anchoring.map change.apply }).transform? x
          = w.transform? x := by
      intro x
      rw [transform?, entity?_modifyEntity]
      split
      · cases hx : w.entity? x <;> simp [transform?, hx]
      · rfl
    refine ⟨Array.size_modify, fun x => ?_, fun x => ?_, fun x => ?_, fun x => ?_⟩
    · rw [parent?, transforms]
      rfl
    · rw [children_eq, transforms, ← children_eq]
    · rw [transforms]
    · rw [actor?, entity?_modifyEntity]
      split
      · cases hx : w.entity? x <;> simp [actor?, hx]
      · rfl
  · exact of_sameLinks (AgreesOn.record w _)

/-- A new viewport keeps the ties. -/
theorem setViewport (w : World K B) (viewport : Viewport) : SameTies w (w.setViewport viewport) :=
  have resized : SameTies w { w with viewport := some viewport } := of_entities rfl
  resized.trans (of_sameLinks (AgreesOn.foldl sameLinks_invalidate _))

section Edits

variable [Scalar K] [Behavior K B]

/-- Other edits keep the tree as it is. -/
theorem apply (w : World K B) {x : Edit K B} (keeps : ¬ x.Relinks) :
    SameTies w (w.apply x).2 := by
  cases x with
  | spawn | spawnTransform | spawnBare | despawn | setParent | removeChild =>
    exact absurd trivial keeps
  | place e placement => exact .of_sameLinks (sameLinks_place w e placement)
  | placeInWorld e placement => exact .of_sameLinks (sameLinks_placeInWorld w e placement)
  | worldPosition e => exact .of_settles (settles_worldPosition w e)
  | localToWorld e => exact .of_settles (settles_localToWorld w e)
  | worldToLocal e => exact .of_settles (settles_worldToLocal w e)
  | localToWorldPoint e v => exact .of_settles (settles_localToWorldPoint w e v)
  | worldToLocalPoint e v => exact .of_settles (settles_worldToLocalPoint w e v)
  | translate e offset space => exact .of_sameLinks (sameLinks_translate w e offset space)
  | rotate e rotation space => exact .of_sameLinks (sameLinks_rotate w e rotation space)
  | rotateAround e point rotation =>
    exact .of_sameLinks (sameLinks_rotateAround w e point rotation)
  | invalidate e => exact .of_settles (settles_invalidate w e)
  | changeAnchoring e change => exact .changeAnchoring w e change
  | worldRect e => exact .of_settles (settles_worldRect w e)
  | rectContains e point => exact .of_settles (settles_rectContains w e point)
  | setViewport viewport => exact .setViewport w viewport
  | snapshot => exact .of_settles (settles_snapshot w)
  | _ =>
    refine .of_sameScene (SameScene.apply w ?_)
    trivial

end Edits

end SameTies

/-! ## Changes of the tree -/

namespace Traceable

variable {w w' : World K B}

/-- A traceable scene stays traceable as long as its ties are the same. -/
theorem congr (h : w.Traceable) (ties : SameTies w w') : w'.Traceable where
  parent e p child place := by
    rw [ties.parents]
    rw [ties.children] at child
    rw [ties.places] at place
    exact h.parent e p child place
  known e p child := by
    rw [ties.children] at child
    rw [ties.size]
    exact h.known e p child
  acyclic e := by
    rw [above_congr ties.parents]
    exact h.acyclic e
  placed e actor := by
    rw [ties.actors] at actor
    rw [ties.places]
    exact h.placed e actor

/-- An empty scene is traceable. -/
theorem of_empty (entities : w.entities = #[]) : w.Traceable := by
  have gone : ∀ e, w.entity? e = none := by
    intro e
    rw [entity?, entities]
    rfl
  have childless : ∀ p, w.children p = [] := by
    intro p
    rw [children_eq, transform?, gone]
    rfl
  refine ⟨fun e p child => ?_, fun e p child => ?_, fun e cycle => ?_, fun e actor => ?_⟩
  · rw [childless] at child
    cases child
  · rw [childless] at child
    cases child
  · obtain ⟨p, up, -⟩ := Relation.TransGen.head'_iff.1 cycle
    have place := transform?_of_above up
    rw [transform?, gone] at place
    cases place
  · rw [actor?, gone] at actor
    cases actor

/-- Who is among the children after an entity has left its parent was there before, and is not the
entity itself if it has a place. -/
theorem mem_children_leave (h : w.Traceable) {e x p : EntityId}
    (child : x ∈ (w.leave e).children p) :
    x ∈ w.children p ∧ ((w.transform? x).isSome → x ≠ e) := by
  unfold World.leave at child
  cases old : w.parent? e with
  | none =>
    rw [old] at child
    refine ⟨child, ?_⟩
    rintro place rfl
    rw [h.parent x p child place] at old
    cases old
  | some q =>
    rw [old] at child
    dsimp only at child
    rw [children_unlinkChild] at child
    split at child
    · obtain ⟨before, apart⟩ := List.mem_filter.1 child
      exact ⟨before, fun _ => by simpa using apart⟩
    · rename_i elsewhere
      refine ⟨child, ?_⟩
      rintro place rfl
      rw [h.parent x p child place] at old
      exact elsewhere (Option.some.inj old)

/-- Reparenting keeps a scene traceable, whether it is refused or not. -/
theorem setParent (h : w.Traceable) (e : EntityId) (parent : Option EntityId) :
    (w.setParent e parent).2.Traceable := by
  have only := onlyPlaces_setParent w e parent
  cases accepted : w.parentRefusal e parent with
  | some reason =>
    rw [World.setParent, accepted]
    exact h.congr (.of_sameLinks (AgreesOn.record w _))
  | none =>
    have place := ((parentRefusal_eq_none_iff w e parent).1 accepted).1
    have child : ∀ {x p}, x ∈ (w.setParent e parent).2.children p →
        (x ∈ w.children p ∧ ((w.transform? x).isSome → x ≠ e)) ∨ (x = e ∧ parent = some p) := by
      intro x p child
      rw [children_setParent accepted, List.mem_append] at child
      rcases child with stays | joins
      · exact .inl (h.mem_children_leave stays)
      · split at joins
        · rename_i new
          exact .inr ⟨List.mem_singleton.1 joins, new⟩
        · cases joins
    refine ⟨fun x p hx hplace => ?_, fun x p hx => ?_, acyclic_setParent h.acyclic e parent,
      fun x actor => ?_⟩
    · rw [only.isSome_transform?] at hplace
      rw [parent?_setParent accepted]
      rcases child hx with ⟨stays, apart⟩ | ⟨rfl, new⟩
      · rw [if_neg (apart hplace)]
        exact h.parent x p stays hplace
      · rw [if_pos rfl, new]
    · rw [only.size]
      rcases child hx with ⟨stays, -⟩ | ⟨rfl, -⟩
      · exact h.known x p stays
      · exact index_lt_of_transform? place
    · rw [only.actor?] at actor
      rw [only.isSome_transform?]
      exact h.placed x actor

/-- Removing a child keeps a scene traceable. -/
theorem removeChild (h : w.Traceable) (parent e : EntityId) :
    (w.removeChild parent e).Traceable := by
  unfold World.removeChild
  split
  · exact h.setParent e none
  · exact h

/-! ## Entities coming and going -/

/-- Creating an entity without ties keeps a scene traceable. -/
theorem create (h : w.Traceable) {entity : Entity K B}
    (free : ∀ t, entity.transform = some t → t.parent = none ∧ t.children = [])
    (placed : entity.actor.isSome → entity.transform.isSome) : (w.create entity).2.Traceable := by
  have links := links_create w free
  have size : (w.create entity).2.entities.size = w.entities.size + 1 := Array.size_push _
  refine ⟨fun e p child place => ?_, fun e p child => ?_, fun e => ?_, fun e actor => ?_⟩
  · rw [(links p).2] at child
    rw [(links e).1]
    have old := Nat.ne_of_lt (h.known e p child)
    rw [transform?, entity?_create, if_neg old] at place
    exact h.parent e p child place
  · rw [(links p).2] at child
    rw [size]
    exact Nat.lt_succ_of_lt (h.known e p child)
  · rw [above_congr fun x => (links x).1]
    exact h.acyclic e
  · rw [actor?, entity?_create] at actor
    rw [transform?, entity?_create]
    split at actor
    · rename_i new
      rw [if_pos new]
      exact placed actor
    · rename_i old
      rw [if_neg old]
      exact h.placed e actor

/-- Spawning an actor keeps a scene traceable. -/
theorem spawn (h : w.Traceable) (spec : ActorSpec K) : (w.spawn spec).2.Traceable := by
  have created : ∀ {entity : Entity K B},
      entity.transform = some (.ofParts spec.position spec.rotation spec.scale) →
      ({ (w.create entity).2 with
        roster := some ((w.create entity).2.actors ++ [(w.create entity).1]) } :
          World K B).Traceable := by
    intro entity place
    have joined : (w.create entity).2.Traceable := by
      refine h.create (fun t ht => ?_) fun _ => by rw [place, Option.isSome_some]
      cases place.symm.trans ht
      exact ⟨rfl, rfl⟩
    exact joined.congr (.of_entities rfl)
  unfold World.spawn
  dsimp only
  split
  · exact (created rfl).setParent _ _
  · exact created rfl

/-- What is left when an entity is dropped. -/
theorem despawn (h : w.Traceable) (e : EntityId) : (w.despawn e).2.Traceable := by
  have entity := entity?_despawn w e
  have left : ∀ {x}, ((w.despawn e).2.transform? x).isSome →
      x ≠ e ∧ (w.despawn e).2.transform? x = w.transform? x := by
    intro x place
    rw [transform?, entity] at place
    split at place
    · cases place
    · rename_i other
      exact ⟨other, by rw [transform?, entity, if_neg other]; rfl⟩
  have child : ∀ {x p}, x ∈ (w.despawn e).2.children p → x ∈ w.children p := by
    intro x p child
    have same := (left (transform?_of_mem_children child)).2
    rwa [children_eq, same, ← children_eq] at child
  refine ⟨fun x p hx place => ?_, fun x p hx => ?_, fun x cycle => ?_, fun x actor => ?_⟩
  · have same := (left place).2
    rw [same] at place
    rw [parent?, same]
    exact h.parent x p (child hx) place
  · rw [size_despawn]
    exact h.known x p (child hx)
  · refine h.acyclic x (Relation.TransGen.mono (fun y z up => ?_) x x cycle)
    have same := (left (transform?_of_above up)).2
    unfold Above at up ⊢
    rwa [parent?, same] at up
  · rw [actor?, entity] at actor
    split at actor
    · cases actor
    · rename_i other
      rw [transform?, entity, if_neg other]
      exact h.placed x actor

/-- What is left when the links of an entity are cut. -/
theorem detach (h : w.Traceable) (e : EntityId) : (w.detach e).Traceable := by
  have only := onlyPlaces_detach w e
  have child : ∀ {x p}, x ∈ (w.detach e).children p →
      p ≠ e ∧ x ∈ w.children p ∧ ((w.transform? x).isSome → x ≠ e) := by
    intro x p child
    rw [children_detach] at child
    split at child
    · cases child
    · rename_i other
      exact ⟨other, h.mem_children_leave child⟩
  refine ⟨fun x p hx place => ?_, fun x p hx => ?_, acyclic_detach h.acyclic e, fun x actor => ?_⟩
  · obtain ⟨other, before, apart⟩ := child hx
    rw [only.isSome_transform?] at place
    rw [parent?_detach, if_neg]
    · exact h.parent x p before place
    · rintro (same | mine)
      · exact apart place same
      · have both := (h.parent x p before place).symm.trans (h.parent x e mine place)
        exact other (Option.some.inj both)
  · rw [only.size]
    exact h.known x p (child hx).2.1
  · rw [only.actor?] at actor
    rw [only.isSome_transform?]
    exact h.placed x actor

/-- Reclaiming an entity keeps a scene traceable. -/
theorem reclaim (h : w.Traceable) (e : EntityId) : (w.reclaim e).Traceable :=
  ((h.detach e).despawn e).congr (.of_entities rfl)

/-! ## All changes -/

section Edits

variable [Scalar K] [Behavior K B]

/-- Every edit of a program keeps a scene traceable. -/
theorem apply (h : w.Traceable) (x : Edit K B) : (w.apply x).2.Traceable := by
  cases x with
  | spawn spec => exact h.spawn spec
  | spawnTransform position rotation scale =>
    refine h.create (fun t ht => ?_) fun _ => rfl
    cases ht
    exact ⟨rfl, rfl⟩
  | spawnBare => exact h.create (fun t ht => nomatch ht) fun actor => nomatch actor
  | despawn e => exact h.despawn e
  | setParent e parent => exact h.setParent e parent
  | removeChild parent e => exact h.removeChild parent e
  | _ => exact h.congr (.apply w id)

end Edits

end Traceable

end World

section Scenes

variable [Scalar K] [Behavior K B] {scope : Scope K B}

/-- The tree changes by edits and with actors that are reclaimed. -/
theorem Change.ties {x y : Instant K B} (change : Change scope x y) :
    World.SameTies x.world y.world ∨ (∃ e, y.world = x.world.reclaim e) ∨
      ∃ edit, y.world = (x.world.apply edit).2 := by
  have slot : ∀ {w v : World K B}, World.SameTies w v → ∀ e index f,
      World.SameTies w (v.modifySlot e index f) :=
    fun hw e index f => hw.trans (.of_sameScene (.modifySlots _ e _))
  have record : ∀ (w : World K B) event, World.SameTies w (w.record event) :=
    fun w event => .of_entities rfl
  cases change with
  | edit x _ => exact .inr (.inr ⟨x, rfl⟩)
  | record _ => exact .inl (record _ _)
  | dequeue | lend | restore _ => exact .inl (.of_entities rfl)
  | reclaim e => exact .inr (.inl ⟨e, rfl⟩)
  | switch => exact .inl (.of_sameScene (.modifyActor _ _ _))
  | enable => exact .inl (slot (.of_entities rfl) _ _ _)
  | putOff | start => exact .inl ((slot (.of_entities rfl) _ _ _).trans (record _ _))
  | resume => exact .inl ((slot (record _ _) _ _ _).trans (record _ _))
  | finish => exact .inl (slot (record _ _) _ _ _)
  | vanish component =>
    exact .inl ((record _ _).trans (.of_sameScene (.dropComponent _ component)))

/-- No change makes lineages untraceable. -/
theorem Change.traceable {x y : Instant K B} (change : Change scope x y)
    (h : x.world.Traceable) : y.world.Traceable := by
  rcases change.ties with ties | ⟨e, reclaimed⟩ | ⟨edit, edited⟩
  · exact h.congr ties
  · exact reclaimed ▸ h.reclaim e
  · exact edited ▸ h.apply edit

/-- Lineages are traceable in any scene. -/
theorem Reachable.traceable {w : World K B} (behaved : scope.Behaved)
    (sent : ∀ dt, scope.hooks (.update dt) ∧ scope.hooks (.lateUpdate dt))
    (h : Reachable scope.fit w) : w.Traceable :=
  h.changes behaved sent (I := fun y => y.world.Traceable) (fun _ entities _ => .of_empty entities)
    Change.traceable

end Scenes

namespace World

variable {w w' : World K B}

/-! ## Taking out what is not above -/

/-- A lineage is the same where the parents on it are. -/
theorem lineageFrom_congr_on {steps : Nat} {e : EntityId}
    (parents : ∀ x ∈ w.lineageFrom steps e, w'.parent? x = w.parent? x) :
    w'.lineageFrom steps e = w.lineageFrom steps e := by
  induction steps generalizing e with
  | zero => rfl
  | succ steps ih =>
    rw [lineageFrom] at parents
    rw [lineageFrom, lineageFrom]
    cases hp : w.parent? e with
    | none =>
      rw [hp] at parents
      rw [parents e (List.mem_cons_self ..), hp]
    | some p =>
      rw [hp] at parents
      rw [parents e (List.mem_cons_self ..), hp]
      exact congrArg (e :: ·) (ih fun x member => parents x (List.mem_cons_of_mem _ member))

/-- A rotation in the world is the same where the lineage and the rotations on it are. -/
theorem worldRotation?_congr [Scalar K] {e : EntityId} (lineage : w'.lineage e = w.lineage e)
    (rotations : ∀ x ∈ w.lineage e,
      (w'.transform? x).map (·.rotation) = (w.transform? x).map (·.rotation)) :
    w'.worldRotation? e = w.worldRotation? e := by
  have product : ∀ v : World K B, v.worldRotation? e =
      ((v.transform? e).map (·.rotation)).map fun own =>
        ((v.ancestors e).filterMap fun x => (v.transform? x).map (·.rotation)).foldl
          (fun q above => above * q) own := by
    intro v
    have pairs : ∀ (l : List EntityId) (q : Quat K),
        (l.filterMap v.transform?).foldl (fun q above => above.rotation * q) q =
          (l.filterMap fun x => (v.transform? x).map (·.rotation)).foldl
            (fun q above => above * q) q := by
      intro l
      induction l with
      | nil => exact fun q => rfl
      | cons x l ih =>
        intro q
        cases hx : v.transform? x <;> simp [hx, ih]
    unfold worldRotation?
    rw [Option.map_map]
    congr 1
    funext t
    exact pairs _ _
  have above : (w.ancestors e).filterMap (fun x => (w'.transform? x).map (·.rotation)) =
      (w.ancestors e).filterMap fun x => (w.transform? x).map (·.rotation) := by
    refine List.filterMap_congr fun x member => rotations x ?_
    rw [lineage_eq_cons]
    exact List.mem_cons_of_mem _ member
  have ancestors : w'.ancestors e = w.ancestors e := by
    unfold World.ancestors
    rw [lineage]
  rw [product w', product w, ancestors, above, rotations e (self_mem_lineage w e)]

namespace Traceable

/-- Whatever leads down to a place is a place, and the former is above the latter. -/
theorem below_of_mem_subtreeFrom (h : w.Traceable) {depth : Nat} {e x : EntityId}
    (place : (w.transform? x).isSome) (member : x ∈ w.subtreeFrom depth e) :
    (w.transform? e).isSome ∧ w.Below x e := by
  induction depth generalizing e with
  | zero =>
    rw [subtreeFrom, List.mem_singleton] at member
    subst member
    exact ⟨place, .refl⟩
  | succ depth ih =>
    rw [subtreeFrom, List.mem_cons, List.mem_flatMap] at member
    rcases member with rfl | ⟨c, child, member⟩
    · exact ⟨place, .refl⟩
    · obtain ⟨there, below⟩ := ih member
      exact ⟨transform?_of_mem_children child, below.tail (h.parent c e child there)⟩

variable {d e : EntityId}

/-- On a lineage on which an entity does not stand, none is among its children. -/
theorem not_mem_children (h : w.Traceable) (apart : d ∉ w.lineage e) {x : EntityId}
    (member : x ∈ w.lineage e) (place : (w.transform? x).isSome) : x ∉ w.children d := by
  intro child
  have below := (mem_lineage_iff h.acyclic).1 member
  exact apart ((mem_lineage_iff h.acyclic).2 (below.tail (h.parent x d child place)))

/-- When an actor is taken out of the scene, whoever does not stand below it keeps its lineage. -/
theorem lineage_reclaim (h : w.Traceable) (apart : d ∉ w.lineage e) :
    (w.reclaim d).lineage e = w.lineage e := by
  have size : (w.reclaim d).entities.size = w.entities.size :=
    (size_despawn _ d).trans (onlyPlaces_detach w d).size
  unfold lineage
  rw [size]
  refine lineageFrom_congr_on fun x member => ?_
  rw [parent?_reclaim, parent?_detach]
  cases hp : w.parent? x with
  | none => split <;> rfl
  | some p =>
    rw [if_neg]
    rintro (rfl | child)
    · exact apart member
    · exact h.not_mem_children apart member (transform?_of_above hp) child

/-- When an actor is taken out of the scene, places that are not below it stay, but for their
children. -/
theorem transform?_reclaim (h : w.Traceable) (apart : d ∉ w.lineage e) {x : EntityId}
    (member : x ∈ w.lineage e) :
    ((w.reclaim d).transform? x).map childless = (w.transform? x).map childless := by
  have other : x ≠ d := by
    rintro rfl
    exact apart member
  have same : (w.reclaim d).transform? x = (w.detach d).transform? x := by
    rw [transform?, entity?_reclaim, if_neg other]
    rfl
  rw [same]
  by_cases place : (w.transform? x).isSome
  · have spared : ∀ c ∈ w.children d, x ∉ (w.cut d).subtree c := by
      intro c child inside
      rw [← subtree_detach] at inside
      have only := (onlyPlaces_detach w d).isSome_transform?
      obtain ⟨there, below⟩ := (h.detach d).below_of_mem_subtreeFrom ((only x).trans place) inside
      have below := Relation.ReflTransGen.mono (above_detach_le w d) x c below
      have lineage := (mem_lineage_iff h.acyclic).1 member
      exact h.not_mem_children apart ((mem_lineage_iff h.acyclic).2 (lineage.trans below))
        ((only c).symm.trans there) child
    rw [World.detach, transform?_foldl_orphan _ spared, cut, transform?_modifyTransform,
      if_neg other]
    exact childless_leave w d x
  · have gone := Option.not_isSome_iff_eq_none.1 place
    have gone' : (w.detach d).transform? x = none := by
      rw [← Option.not_isSome_iff_eq_none, (onlyPlaces_detach w d).isSome_transform?]
      exact place
    rw [gone, gone']

end Traceable

end World

end SheepScene
