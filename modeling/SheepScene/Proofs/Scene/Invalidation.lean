import SheepScene.Proofs.Scene.Caching

/-!
# Changes forget what they make stale

Every change of a scene leaves alone everything outside of a part of the tree that reaches all the
way down, and forgets the matrices in that part (`Untouched`): the subtree of an entity that is
placed, laid out anew or put under another parent, everything in a rectangle when the viewport
changes, the children of an actor that is removed. Therefore matrices that are kept stay up to
date in every scene that comes about from an empty one, and no query can tell that they are kept
(`queries_answer_compositions`).
-/

set_option autoImplicit false

namespace SheepScene.World

variable {K B : Type}

/-! ## Invalidation -/

/-- A subtree depends only on the lists of children. -/
theorem subtree_congr {w w' : World K B} (size : w'.entities.size = w.entities.size)
    (children : ∀ e, w'.children e = w.children e) (e : EntityId) :
    w'.subtree e = w.subtree e := by
  unfold subtree
  rw [size, subtreeFrom_congr children]

/-- Places after matrices have been forgotten. -/
theorem transform?_invalidate (w : World K B) (e x : EntityId) :
    (w.invalidate e).transform? x
      = if x ∈ w.subtree e then (w.transform? x).map Transform.invalidated
        else w.transform? x := by
  have forgotten : ∀ (l : List EntityId) (w : World K B),
      (l.foldl (fun w e => w.modifyTransform e Transform.invalidated) w).transform? x
        = if x ∈ l then (w.transform? x).map Transform.invalidated else w.transform? x := by
    intro l
    induction l with
    | nil => exact fun w => (if_neg List.not_mem_nil).symm
    | cons e l ih =>
      intro w
      rw [List.foldl_cons, ih, transform?_modifyTransform]
      by_cases hl : x ∈ l
      · rw [if_pos hl, if_pos (List.mem_cons_of_mem _ hl)]
        split
        · rw [Option.map_map]
          rfl
        · rfl
      · rw [if_neg hl]
        by_cases hx : x = e
        · rw [if_pos hx, if_pos (hx ▸ List.mem_cons_self ..)]
        · rw [if_neg hx, if_neg (by simp [hx, hl])]
  exact forgotten _ w

/-- Telling several subtrees that they are stale takes the matrices from all that are in one of
them. -/
theorem transform?_foldl_invalidate (l : List EntityId) (w : World K B) (x : EntityId) :
    (l.foldl invalidate w).transform? x
      = if ∃ e ∈ l, x ∈ w.subtree e then (w.transform? x).map Transform.invalidated
        else w.transform? x := by
  induction l generalizing w with
  | nil => exact (if_neg (by simp)).symm
  | cons e l ih =>
    have links := sameLinks_invalidate w e
    rw [List.foldl_cons, ih, transform?_invalidate]
    simp only [subtree_congr links.size links.children]
    by_cases hl : ∃ e ∈ l, x ∈ w.subtree e
    · have hl' : ∃ r ∈ e :: l, x ∈ w.subtree r := by
        obtain ⟨r, hr, hx⟩ := hl
        exact ⟨r, List.mem_cons_of_mem _ hr, hx⟩
      rw [if_pos hl, if_pos hl']
      split
      · rw [Option.map_map]
        rfl
      · rfl
    · rw [if_neg hl]
      by_cases hx : x ∈ w.subtree e
      · have hl' : ∃ r ∈ e :: l, x ∈ w.subtree r := ⟨e, List.mem_cons_self .., hx⟩
        rw [if_pos hx, if_pos hl']
      · have hl' : ¬ ∃ r ∈ e :: l, x ∈ w.subtree r := by
          rintro ⟨r, hr, hxr⟩
          rcases List.mem_cons.1 hr with rfl | hr
          · exact hx hxr
          · exact hl ⟨r, hr, hxr⟩
        rw [if_neg hx, if_neg hl']

/-! ## What a change leaves alone -/

/-- A place without its children. -/
def childless (t : Transform K) : Transform K :=
  { t with children := [] }

/-- Who is above can be told from a place without its children. -/
theorem parent?_of_childless {w w' : World K B} {e : EntityId}
    (h : (w'.transform? e).map childless = (w.transform? e).map childless) :
    w'.parent? e = w.parent? e := by
  have := congrArg (Option.bind · Transform.parent) h
  simpa only [parent?, Option.bind_map, Function.comp_def, childless] using this

/-- Changing the children of a place changes nothing else about it. -/
theorem childless_modifyChildren (w : World K B) (e : EntityId)
    (g : List EntityId → List EntityId) (x : EntityId) :
    ((w.modifyTransform e fun t => { t with children := g t.children }).transform? x).map childless
      = (w.transform? x).map childless := by
  rw [transform?_modifyTransform]
  split
  · rw [Option.map_map]
    rfl
  · rfl

/-- Leaving a parent changes nothing but children. -/
theorem childless_leave (w : World K B) (e x : EntityId) :
    ((w.leave e).transform? x).map childless = (w.transform? x).map childless := by
  unfold leave
  split
  · exact childless_modifyChildren w _ _ x
  · rfl

/-- Joining a parent changes nothing but children. -/
theorem childless_join (w : World K B) (e : EntityId) (parent : Option EntityId) (x : EntityId) :
    ((w.join e parent).transform? x).map childless = (w.transform? x).map childless := by
  unfold join
  split
  · exact childless_modifyChildren w _ (· ++ [e]) x
  · rfl

/-- No matrix is kept for an entity. -/
def Forgotten (w : World K B) (e : EntityId) : Prop :=
  ∀ t, w.transform? e = some t → t.localToWorld = none ∧ t.worldToLocal = none

/-- No matrix is kept for those in a subtree that was told to be stale. -/
theorem forgotten_invalidate {w : World K B} {e x : EntityId} (hx : x ∈ w.subtree e) :
    (w.invalidate e).Forgotten x := by
  intro t ht
  rw [transform?_invalidate, if_pos hx] at ht
  obtain ⟨t₀, -, rfl⟩ := Option.map_eq_some_iff.1 ht
  exact ⟨rfl, rfl⟩

section Untouched

variable [Scalar K]

/-- A change that leaves alone all places outside of a part of the tree, and how they are laid out,
and forgets the matrices in that part. -/
structure Untouched (touched : EntityId → Prop) (w w' : World K B) : Prop where
  closed : w.ClosedBelow touched
  same : ∀ e, ¬ touched e → (w'.transform? e).map childless = (w.transform? e).map childless
  layout : ∀ e, ¬ touched e → w'.derivedPosition? e = w.derivedPosition? e
  forgotten : ∀ e, touched e → w'.Forgotten e

variable {touched : EntityId → Prop} {w w' : World K B}

/-- Such a change keeps matrices up to date. -/
theorem Coherent.untouched (h : w.Coherent) (links : w'.WellLinked)
    (change : Untouched touched w w') : w'.Coherent := by
  have parents : ∀ e, ¬ touched e → w'.parent? e = w.parent? e :=
    fun e he => parent?_of_childless (change.same e he)
  have own : ∀ e, ¬ touched e → w'.ownMatrix? e = w.ownMatrix? e := by
    intro e he
    have matrix : ∀ (v : World K B) t,
        (v.laidOut e t).localMatrix = (v.laidOut e (childless t)).localMatrix := by
      intro v t
      unfold laidOut
      cases v.derivedPosition? e <;> rfl
    have laid : w'.laidOut e = w.laidOut e := by
      funext t
      unfold laidOut
      rw [change.layout e he]
    have := congrArg (Option.map fun t => (w.laidOut e t).localMatrix) (change.same e he)
    rw [Option.map_map, Option.map_map] at this
    unfold ownMatrix?
    rw [laid, funext (matrix w)]
    exact this
  refine ⟨links, fun e t ht => ?_⟩
  by_cases he : touched e
  · obtain ⟨hmatrix, hinverse⟩ := change.forgotten e he t ht
    refine ⟨fun m hm => ?_, fun n hn => ?_⟩
    · rw [hmatrix] at hm
      cases hm
    · rw [hinverse] at hn
      cases hn
  · have hsame := change.same e he
    rw [ht] at hsame
    obtain ⟨t₀, ht₀, hchildless⟩ := Option.map_eq_some_iff.1 hsame.symm
    have knows := h.knows e t₀ ht₀
    have hmatrix : (childless t₀).localToWorld = (childless t).localToWorld := by rw [hchildless]
    have hinverse : (childless t₀).worldToLocal = (childless t).worldToLocal := by
      rw [hchildless]
    refine ⟨fun m hm => ?_, fun n hn => ?_⟩
    · exact (knows.matrix m (hmatrix.trans hm)).untouched change.closed parents own he
    · rw [show t.localToWorld = t₀.localToWorld from hmatrix.symm]
      exact knows.inverse n (hinverse.trans hn)

omit [Scalar K] in
/-- With an entity all below it are below it. -/
theorem closed_below (w : World K B) (e : EntityId) : w.ClosedBelow (w.Below · e) :=
  fun _ _ hup hbelow => .head hup hbelow

omit [Scalar K] in
/-- Being below an entity does not depend on what is above it. -/
theorem below_iff_of_elsewhere {e : EntityId}
    (parents : ∀ x, x ≠ e → w'.parent? x = w.parent? x) (x : EntityId) :
    w'.Below x e ↔ w.Below x e := by
  have carry : ∀ {v v' : World K B}, (∀ x, x ≠ e → v'.parent? x = v.parent? x) →
      v.Below x e → v'.Below x e := by
    intro v v' same hbelow
    induction hbelow using Relation.ReflTransGen.head_induction_on with
    | refl => exact .refl
    | @head y z hup _ ih =>
      by_cases hy : y = e
      · rw [hy]
      · exact .head ((same y hy).trans hup) ih
  exact ⟨carry fun y hy => (parents y hy).symm, carry parents⟩

/-- A change of an entity, and of children elsewhere, that is followed by forgetting the matrices
below the entity. -/
theorem untouched_invalidate {e : EntityId} (links : w'.WellLinked)
    (size : w'.entities.size = w.entities.size) (viewport : w'.viewport = w.viewport)
    (places : ∀ x, x ≠ e → (w'.transform? x).map childless = (w.transform? x).map childless)
    (anchorings : ∀ x, x ≠ e → w'.anchoring? x = w.anchoring? x) :
    Untouched (w.Below · e) w (w'.invalidate e) := by
  have settles := settles_invalidate w' e
  have parents := fun x hx => parent?_of_childless (places x hx)
  have other : ∀ x, ¬ w.Below x e → x ≠ e := by
    rintro x hx rfl
    exact hx .refl
  have reached : ∀ x, x ∈ w'.subtree e ↔ w.Below x e := fun x =>
    links.mem_subtree_iff.trans (below_iff_of_elsewhere parents x)
  refine ⟨w.closed_below e, fun x hx => ?_, fun x hx => ?_,
    fun x hx => forgotten_invalidate ((reached x).2 hx)⟩
  · rw [transform?_invalidate, if_neg (mt (reached x).1 hx), places x (other x hx)]
  · refine derivedPosition?_untouched (w.closed_below e) (fun y hy => ?_) (fun y hy => ?_) ?_ ?_ hx
    · rw [settles.sameLinks.parent?, parents y (other y hy)]
    · rw [settles.sameLinks.onlyPlaces.anchoring?, anchorings y (other y hy)]
    · rw [settles.rest]
      exact viewport
    · exact settles.size.trans size

/-! ## Changes of places and layouts -/

/-- Matrices are up to date as long as places, anchorings and the viewport are the same. -/
theorem Coherent.congr (h : w.Coherent) (size : w'.entities.size = w.entities.size)
    (transforms : ∀ e, w'.transform? e = w.transform? e)
    (anchorings : ∀ e, w'.anchoring? e = w.anchoring? e) (viewport : w'.viewport = w.viewport) :
    w'.Coherent := by
  have parents : ∀ e, w'.parent? e = w.parent? e := by
    intro e
    rw [parent?, transforms, parent?]
  have children : ∀ e, w'.children e = w.children e := by
    intro e
    rw [children_eq, transforms, children_eq]
  refine h.untouched (h.links.congr parents children) ⟨closed_none w, fun e _ => ?_, fun e _ => ?_,
    fun e he => absurd he id⟩
  · rw [transforms]
  · exact derivedPosition?_congr size parents anchorings viewport e

/-- Matrices stay up to date as long as the scene is the same. -/
theorem Coherent.same (h : w.Coherent) (same : SameScene w w') : w'.Coherent :=
  h.congr same.size same.transform? same.anchoring? same.viewport

/-- A note in the journal keeps matrices up to date. -/
theorem Coherent.record (h : w.Coherent) (event : Event K B) : (w.record event).Coherent :=
  h.congr rfl (fun _ => rfl) (fun _ => rfl) rfl

/-- Changing an entity and forgetting what is below it keeps matrices up to date. -/
theorem Coherent.change {e : EntityId} (h : w.Coherent) (links : w'.WellLinked)
    (size : w'.entities.size = w.entities.size) (viewport : w'.viewport = w.viewport)
    (places : ∀ x, x ≠ e → (w'.transform? x).map childless = (w.transform? x).map childless)
    (anchorings : ∀ x, x ≠ e → w'.anchoring? x = w.anchoring? x) :
    (w'.invalidate e).Coherent := by
  have kept := sameLinks_invalidate w' e
  exact h.untouched (links.congr kept.parent? kept.children)
    (untouched_invalidate links size viewport places anchorings)

/-- Telling a subtree that it is stale keeps matrices up to date. -/
theorem Coherent.invalidate (h : w.Coherent) (e : EntityId) : (w.invalidate e).Coherent :=
  h.change h.links rfl rfl (fun _ _ => rfl) fun _ _ => rfl

/-- Placing an entity by its local parts keeps matrices up to date. -/
theorem Coherent.place (h : w.Coherent) (e : EntityId) (placement : Placement K) :
    (w.place e placement).Coherent := by
  unfold World.place
  split
  · have moved : SameLinks w (w.modifyTransform e (placed placement)) :=
      AgreesOn.modifyTransform fun x t hx ht => by
        cases placement <;> simp only [Entity.linked, ht, placed, Option.map_some]
    refine h.change (h.links.congr moved.parent? moved.children) moved.size ?_ (fun x hx => ?_)
      fun x _ => moved.onlyPlaces.anchoring? x
    · rw [moved.rest]
    · rw [transform?_modifyTransform, if_neg hx]
  · exact h.record _

/-- Carrying a placement into the space of a parent keeps matrices up to date. -/
theorem Coherent.inParentSpace (h : w.Coherent) (parent : EntityId) (placement : Placement K) :
    (w.inParentSpace parent placement).2.Coherent := by
  cases placement with
  | position v => exact h.worldToLocal parent
  | rotation q => exact h
  | scale v => exact h

/-- Placing an entity in the world keeps matrices up to date. -/
theorem Coherent.placeInWorld (h : w.Coherent) (e : EntityId) (placement : Placement K) :
    (w.placeInWorld e placement).Coherent := by
  unfold World.placeInWorld
  split
  · exact h.record _
  · split
    · exact h.place e placement
    · rename_i parent _
      exact (h.inParentSpace parent placement).place e _

/-- Moving an entity keeps matrices up to date. -/
theorem Coherent.translate (h : w.Coherent) (e : EntityId) (offset : Vec3 K) (space : Space) :
    (w.translate e offset space).Coherent := by
  unfold World.translate
  split
  · split
    · exact h.place e _
    · exact h
  · have known := h.worldPosition e
    split
    · rename_i heq
      rw [heq] at known
      exact known.placeInWorld e _
    · rename_i heq
      rw [heq] at known
      exact known

/-- Turning an entity keeps matrices up to date. -/
theorem Coherent.rotate (h : w.Coherent) (e : EntityId) (rotation : Quat K) (space : Space) :
    (w.rotate e rotation space).Coherent := by
  unfold World.rotate
  split
  · split
    · exact h.place e _
    · exact h
  · split
    · exact h.placeInWorld e _
    · exact h

/-- Turning an entity around a point keeps matrices up to date. -/
theorem Coherent.rotateAround (h : w.Coherent) (e : EntityId) (point : Vec3 K)
    (rotation : Quat K) : (w.rotateAround e point rotation).Coherent := by
  have known := h.worldPosition e
  unfold World.rotateAround
  split
  · rename_i heq
    rw [heq] at known
    exact known
  · rename_i heq
    rw [heq] at known
    exact (known.placeInWorld e _).rotate e _ _

/-- Changing an anchoring keeps matrices up to date. -/
theorem Coherent.changeAnchoring (h : w.Coherent) (e : EntityId) (change : AnchoringChange K) :
    (w.changeAnchoring e change).Coherent := by
  unfold World.changeAnchoring
  split
  · have places : ∀ x, (w.modifyEntity e fun entity =>
        { entity with anchoring := entity.anchoring.map change.apply }).transform? x
          = w.transform? x := by
      intro x
      rw [transform?, entity?_modifyEntity]
      split
      · cases hx : w.entity? x <;> simp [transform?, hx]
      · rfl
    refine h.change (h.links.congr (fun x => ?_) fun x => ?_) Array.size_modify rfl
      (fun x _ => ?_) fun x hx => ?_
    · rw [parent?, places, parent?]
    · rw [children_eq, places, children_eq]
    · rw [places]
    · rw [anchoring?, entity?_modifyEntity, if_neg hx]
      rfl
  · exact h.record _

/-- A viewport of another size moves what is laid out in it and all that is below that. -/
theorem Coherent.setViewport (h : w.Coherent) (viewport : Viewport) :
    (w.setViewport viewport).Coherent := by
  have agrees : SameLinks { w with viewport := some viewport } (w.setViewport viewport) :=
    AgreesOn.foldl sameLinks_invalidate _
  have resized : WellLinked { w with viewport := some viewport } :=
    h.links.congr (fun _ => rfl) fun _ => rfl
  have reached : ∀ x, (∃ q ∈ rectNodes { w with viewport := some viewport },
      x ∈ subtree { w with viewport := some viewport } q)
        ↔ ∃ r, (w.anchoring? r).isSome ∧ w.Below x r := by
    intro x
    constructor
    · rintro ⟨q, hq, hx⟩
      exact ⟨q, (List.mem_filter.1 hq).2, resized.mem_subtree_iff.1 hx⟩
    · rintro ⟨r, hr, hbelow⟩
      obtain ⟨a, ha⟩ := Option.isSome_iff_exists.1 hr
      obtain ⟨entity, hentity, -⟩ := Option.bind_eq_some_iff.1 ha
      have hlt := index_lt_of_entity? hentity
      refine ⟨r, List.mem_filter.2 ⟨?_, hr⟩, resized.mem_subtree_iff.2 hbelow⟩
      exact List.mem_map.2 ⟨r.index, List.mem_range.2 hlt, rfl⟩
  have change : Untouched (fun x => ∃ r, (w.anchoring? r).isSome ∧ w.Below x r) w
      (w.setViewport viewport) := by
    refine ⟨?_, fun x hx => ?_, fun x hx => ?_, fun x hx t ht => ?_⟩
    · rintro x parent hup ⟨r, hr, hbelow⟩
      exact ⟨r, hr, .head hup hbelow⟩
    · rw [World.setViewport, transform?_foldl_invalidate, if_neg (mt (reached x).1 hx)]
      rfl
    · have free : w.anchoring? x = none := by
        by_contra hlaid
        exact hx ⟨x, Option.isSome_iff_ne_none.2 hlaid, .refl⟩
      rw [derivedPosition?, derivedPosition?, agrees.onlyPlaces.anchoring?,
        show anchoring? { w with viewport := some viewport } x = none from free, free]
      rfl
    · rw [World.setViewport, transform?_foldl_invalidate, if_pos ((reached x).2 hx)] at ht
      obtain ⟨t₀, -, rfl⟩ := Option.map_eq_some_iff.1 ht
      exact ⟨rfl, rfl⟩
  exact h.untouched (h.links.congr agrees.parent? agrees.children) change

/-! ## Changes of the tree -/

/-- Reparenting an entity keeps matrices up to date. -/
theorem Coherent.setParent (h : w.Coherent) (e : EntityId) (parent : Option EntityId) :
    (w.setParent e parent).2.Coherent := by
  have links := h.links.setParent e parent
  unfold World.setParent at links ⊢
  split
  · exact h.record _
  · rename_i accepted
    rw [accepted] at links
    have moved : OnlyPlaces w (((w.leave e).linkUp e parent).join e parent) :=
      ((onlyPlaces_leave w e).trans (onlyPlaces_linkUp _ e parent)).trans
        (onlyPlaces_join _ e parent)
    refine h.change (links.congr (fun x => (parent?_invalidate _ e x).symm)
      fun x => (children_invalidate _ e x).symm) moved.size ?_ (fun x hx => ?_)
      fun x _ => moved.anchoring? x
    · rw [moved.rest]
    · rw [childless_join, linkUp, transform?_modifyTransform, if_neg hx, childless_leave]

/-- Removing an entity from the children of another one keeps matrices up to date. -/
theorem Coherent.removeChild (h : w.Coherent) (parent child : EntityId) :
    (w.removeChild parent child).Coherent := by
  unfold World.removeChild
  split
  · exact h.setParent child none
  · exact h

/-! ## Entities coming and going -/

/-- An entity that is created with a free place and no matrices leaves matrices up to date. -/
theorem Coherent.create (h : w.Coherent) {entity : Entity K B}
    (free : ∀ t, entity.transform = some t → t.parent = none ∧ t.children = [])
    (unknown : ∀ t, entity.transform = some t → t.localToWorld = none ∧ t.worldToLocal = none) :
    (w.create entity).2.Coherent := by
  have parents := fun x => (links_create w free x).1
  have old : ∀ x : EntityId, x.index ≠ w.entities.size →
      (w.create entity).2.entity? x = w.entity? x := by
    intro x hx
    rw [entity?_create, if_neg hx]
  have places : ∀ x : EntityId, x.index ≠ w.entities.size →
      (w.create entity).2.transform? x = w.transform? x := by
    intro x hx
    rw [transform?, old x hx]
    rfl
  have anchorings : ∀ x : EntityId, x.index ≠ w.entities.size →
      (w.create entity).2.anchoring? x = w.anchoring? x := by
    intro x hx
    rw [anchoring?, old x hx]
    rfl
  have closed : w.ClosedBelow fun x => x.index = w.entities.size := by
    intro x parent hup hparent
    have := index_lt_of_transform? (h.links.transform?_parent hup)
    omega
  have size : (w.create entity).2.entities.size = w.entities.size + 1 := Array.size_push _
  refine h.untouched (h.links.create free) ⟨closed, fun x hx => ?_, fun x hx => ?_,
    fun x hx t ht => ?_⟩
  · rw [places x hx]
  · have outer : (w.create entity).2.parentRect x = w.parentRect x := by
      unfold parentRect
      rw [parents x]
      cases hp : w.parent? x with
      | none => rfl
      | some parent =>
        have hparent := h.links.transform?_parent hp
        have unreached : parent.index ≠ w.entities.size :=
          Nat.ne_of_lt (index_lt_of_transform? hparent)
        have rect : (w.create entity).2.rect? parent = w.rect? parent := by
          unfold rect?
          rw [size, rectFrom_untouched closed (fun y _ => parents y) anchorings rfl _ unreached,
            rectFrom_add 1 (h.links.length_lineageFrom_le hparent)]
        rw [Option.bind_some, Option.bind_some, rect]
        rfl
    unfold derivedPosition?
    rw [anchorings x hx, outer]
  · rw [transform?, entity?_create, if_pos hx] at ht
    exact unknown t ht

/-- Spawning an actor keeps matrices up to date. -/
theorem Coherent.spawn (h : w.Coherent) (spec : ActorSpec K) : (w.spawn spec).2.Coherent := by
  have created : ∀ {entity : Entity K B},
      entity.transform = some (.ofParts spec.position spec.rotation spec.scale) →
      ({ (w.create entity).2 with
        roster := some ((w.create entity).2.actors ++ [(w.create entity).1]) } :
          World K B).Coherent := by
    intro entity htransform
    have known : (w.create entity).2.Coherent := by
      refine h.create (fun t ht => ?_) fun t ht => ?_
      · cases htransform.symm.trans ht
        exact ⟨rfl, rfl⟩
      · cases htransform.symm.trans ht
        exact ⟨rfl, rfl⟩
    exact known.congr rfl (fun _ => rfl) (fun _ => rfl) rfl
  unfold World.spawn
  dsimp only
  split
  · exact (created rfl).setParent _ _
  · exact created rfl

section Orphans

variable {K : Type} {w : World K B}

/-- An orphan keeps those below it. -/
theorem subtree_orphan (w : World K B) (c e : EntityId) :
    (w.orphan c).subtree e = w.subtree e :=
  subtree_congr (onlyPlaces_orphan w c).size (children_orphan w c) e

/-- A detached entity keeps those that it keeps when it is cut out. -/
theorem subtree_detach (w : World K B) (e c : EntityId) :
    (w.detach e).subtree c = (w.cut e).subtree c :=
  subtree_congr (AgreesOn.foldl onlyPlaces_orphan (w.cut e)).size
    (children_foldl_orphan _ (w.cut e)) c

/-- A new link upward changes nobody's subtree. -/
theorem subtree_linkUp (w : World K B) (c : EntityId) (parent : Option EntityId) (e : EntityId) :
    (w.linkUp c parent).subtree e = w.subtree e :=
  subtree_congr (onlyPlaces_linkUp w c parent).size (children_linkUp w c parent) e

/-- Making an orphan of an entity leaves those alone that are not below it. -/
theorem transform?_orphan {c x : EntityId} (hx : x ∉ w.subtree c) :
    (w.orphan c).transform? x = w.transform? x := by
  have hne : x ≠ c := by
    rintro rfl
    exact hx (self_mem_subtreeFrom _ x)
  rw [orphan, transform?_invalidate, subtree_linkUp, if_neg hx, linkUp,
    transform?_modifyTransform, if_neg hne]

/-- For an orphan and those below it no matrix is kept. -/
theorem forgotten_orphan {c x : EntityId} (hx : x ∈ w.subtree c) : (w.orphan c).Forgotten x :=
  forgotten_invalidate (by rwa [subtree_linkUp])

/-- What is forgotten stays forgotten. -/
theorem Forgotten.orphan {x : EntityId} (h : w.Forgotten x) (c : EntityId) :
    (w.orphan c).Forgotten x := by
  by_cases hx : x ∈ w.subtree c
  · exact forgotten_orphan hx
  · intro t ht
    rw [transform?_orphan hx] at ht
    exact h t ht

/-- Making orphans of several entities leaves those alone that are below none of them. -/
theorem transform?_foldl_orphan (l : List EntityId) {w : World K B} {x : EntityId}
    (hx : ∀ c ∈ l, x ∉ w.subtree c) : (l.foldl orphan w).transform? x = w.transform? x := by
  induction l generalizing w with
  | nil => rfl
  | cons c l ih =>
    rw [List.foldl_cons, ih fun d hd => ?_, transform?_orphan (hx c (List.mem_cons_self ..))]
    rw [subtree_orphan]
    exact hx d (List.mem_cons_of_mem _ hd)

/-- For those that are made orphans and those below them no matrix is kept. -/
theorem forgotten_foldl_orphan (l : List EntityId) {w : World K B} {x : EntityId}
    (h : w.Forgotten x ∨ ∃ c ∈ l, x ∈ w.subtree c) : (l.foldl orphan w).Forgotten x := by
  induction l generalizing w with
  | nil =>
    rcases h with h | ⟨c, hc, -⟩
    · exact h
    · cases hc
  | cons c l ih =>
    refine ih ?_
    rcases h with h | ⟨d, hd, hx⟩
    · exact .inl (h.orphan c)
    · rcases List.mem_cons.1 hd with rfl | hd
      · exact .inl (forgotten_orphan hx)
      · exact .inr ⟨d, hd, by rwa [subtree_orphan]⟩

/-- The subtree of a child is cut off as it is. -/
theorem WellLinked.below_detach_iff (h : w.WellLinked) {e c : EntityId} (hc : c ∈ w.children e)
    (x : EntityId) : (w.detach e).Below x c ↔ w.Below x c := by
  have hup : w.Above c e := (h.linked c e).2 hc
  refine ⟨Relation.ReflTransGen.mono (above_detach_le w e) x c, fun hbelow => ?_⟩
  induction hbelow using Relation.ReflTransGen.head_induction_on with
  | refl => exact .refl
  | @head y z hyz hzc ih =>
    refine .head ?_ ih
    unfold Above
    rw [parent?_detach, if_neg]
    · exact hyz
    · -- neither the entity nor another of its children is below the child
      rintro (rfl | hy)
      · exact h.acyclic y (.head' hyz (hzc.tail hup))
      · cases Option.some.inj (((h.linked y e).2 hy).symm.trans hyz)
        exact h.acyclic e (.trans_right hzc (.single hup))

/-- Everything below an entity is below one of its children. -/
theorem WellLinked.below_iff_eq_or_child (h : w.WellLinked) {e x : EntityId} :
    w.Below x e ↔ x = e ∨ ∃ c ∈ w.children e, w.Below x c := by
  constructor
  · intro hbelow
    rcases Relation.ReflTransGen.cases_tail hbelow with heq | ⟨c, hxc, hup⟩
    · exact .inl heq.symm
    · exact .inr ⟨c, (h.linked c e).1 hup, hxc⟩
  · rintro (rfl | ⟨c, hc, hxc⟩)
    · exact .refl
    · exact hxc.tail ((h.linked c e).2 hc)

end Orphans

/-- Taking an actor out of the scene leaves matrices up to date: what was below it is forgotten
while its children are cut off. -/
theorem Coherent.reclaim (h : w.Coherent) (e : EntityId) : (w.reclaim e).Coherent := by
  have moved := onlyPlaces_detach w e
  have gone : ∀ x, x ≠ e → (w.reclaim e).entity? x = (w.detach e).entity? x := by
    intro x hx
    rw [entity?_reclaim, if_neg hx]
  have other : ∀ x, ¬ w.Below x e → x ≠ e := by
    rintro x hx rfl
    exact hx .refl
  have reached : ∀ x, x ≠ e → ((∃ c ∈ w.children e, x ∈ (w.cut e).subtree c) ↔ w.Below x e) := by
    intro x hx
    have inner : ∀ c ∈ w.children e, (x ∈ (w.cut e).subtree c ↔ w.Below x c) := by
      intro c hc
      rw [← subtree_detach, (h.links.detach e).mem_subtree_iff, h.links.below_detach_iff hc]
    rw [h.links.below_iff_eq_or_child, or_iff_right hx]
    exact exists_congr fun c => and_congr_right fun hc => inner c hc
  have places : ∀ x, ¬ w.Below x e → ((w.reclaim e).transform? x).map childless
      = (w.transform? x).map childless := by
    intro x hx
    have hne := other x hx
    have spared : ∀ c ∈ w.children e, x ∉ (w.cut e).subtree c :=
      fun c hc hmem => hx ((reached x hne).1 ⟨c, hc, hmem⟩)
    rw [transform?, gone x hne]
    change ((w.detach e).transform? x).map childless = _
    rw [detach, transform?_foldl_orphan _ spared, cut, transform?_modifyTransform, if_neg hne]
    exact childless_leave w e x
  refine h.untouched (h.links.reclaim e) ⟨w.closed_below e, places, fun x hx => ?_,
    fun x hx => ?_⟩
  · refine derivedPosition?_untouched (w.closed_below e)
      (fun y hy => parent?_of_childless (places y hy)) (fun y hy => ?_) ?_ ?_ hx
    · rw [anchoring?, gone y (other y hy)]
      exact moved.anchoring? y
    · rw [World.reclaim, despawn_eq, moved.rest]
    · exact (size_despawn _ e).trans moved.size
  · intro t ht
    by_cases hne : x = e
    · rw [transform?, entity?_reclaim, if_pos hne] at ht
      cases ht
    · rw [transform?, gone x hne] at ht
      exact forgotten_foldl_orphan _ (.inr ((reached x hne).2 hx)) t ht

end Untouched

end SheepScene.World
