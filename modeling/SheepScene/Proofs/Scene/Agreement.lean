import SheepScene.Scene.Answer

/-!
# What changes of a scene leave alone

Most changes of a scene touch one part of some entities. A view shows the part of an entity that a
change leaves alone, and `AgreesOn` says that two worlds show the same under a view and do not
differ in anything but entities and journal. There is one statement for every operation on places:
queries settle places and nothing else (`Entity.settled`), setters keep the links of the tree
(`Entity.linked`), and changes of the links keep everything but the place (`Entity.unplaced`).
-/

set_option autoImplicit false

namespace SheepScene

variable {K B α β : Type}

/-! ## Views -/

namespace Entity

/-- An entity but for its place, of which only the presence shows. -/
def unplaced (x : Entity K B) : Option (Actor K) × Option (Anchoring K) ×
    Option (Array (Slot K B)) × Bool :=
  (x.actor, x.anchoring, x.slots, x.transform.isSome)

/-- An entity with the links of its place only. -/
def linked (x : Entity K B) : Option (Actor K) × Option (Anchoring K) ×
    Option (Array (Slot K B)) × Option (Option EntityId × List EntityId) :=
  (x.actor, x.anchoring, x.slots, x.transform.map fun t => (t.parent, t.children))

/-- A place without its matrices and without the coordinates that a layout overwrites. -/
def fixedPlace (laidOut : Bool) (t : Transform K) : Option EntityId × List EntityId ×
    Option (Vec3 K) × K × Quat K × Vec3 K :=
  (t.parent, t.children, if laidOut then none else some t.position, t.position.z, t.rotation,
    t.scale)

/-- An entity without matrices and without the coordinates that a layout overwrites. -/
def settled (x : Entity K B) : Option (Actor K) × Option (Anchoring K) ×
    Option (Array (Slot K B)) × Option (Option EntityId × List EntityId ×
      Option (Vec3 K) × K × Quat K × Vec3 K) :=
  (x.actor, x.anchoring, x.slots, x.transform.map (fixedPlace x.anchoring.isSome))

end Entity

/-- Worlds that show the same of every entity under a view, and that agree on everything but
entities and journal. -/
structure AgreesOn (view : Entity K B → α) (w w' : World K B) : Prop where
  rest : w' = { w with entities := w'.entities, journal := w'.journal }
  size : w'.entities.size = w.entities.size
  entity : ∀ e, (w'.entity? e).map view = (w.entity? e).map view

/-- Worlds that differ in places only. -/
abbrev OnlyPlaces (w w' : World K B) : Prop :=
  AgreesOn Entity.unplaced w w'

/-- Worlds that differ in places only, with the same tree. -/
abbrev SameLinks (w w' : World K B) : Prop :=
  AgreesOn Entity.linked w w'

/-- Worlds that differ in what queries make known only. -/
abbrev Settles (w w' : World K B) : Prop :=
  AgreesOn Entity.settled w w'

namespace AgreesOn

variable {view : Entity K B → α} {w w₁ w₂ : World K B}

/-- Agreeing on a view is reflexive. -/
theorem refl (w : World K B) : AgreesOn view w w :=
  ⟨rfl, rfl, fun _ => rfl⟩

/-- Agreeing on a view is transitive. -/
theorem trans (h : AgreesOn view w w₁) (h' : AgreesOn view w₁ w₂) : AgreesOn view w w₂ := by
  refine ⟨?_, h'.size.trans h.size, fun e => (h'.entity e).trans (h.entity e)⟩
  rw [h'.rest, h.rest]

/-- Agreeing on a view is symmetric. -/
theorem symm (h : AgreesOn view w w₁) : AgreesOn view w₁ w := by
  refine ⟨?_, h.size.symm, fun e => (h.entity e).symm⟩
  rw [h.rest]

/-- Worlds that agree on more agree on less. -/
theorem mono {view' : Entity K B → β} (h : AgreesOn view w w₁)
    (less : ∀ x y : Entity K B, view x = view y → view' x = view' y) : AgreesOn view' w w₁ := by
  refine ⟨h.rest, h.size, fun e => ?_⟩
  have := h.entity e
  cases hw₁ : w₁.entity? e with
  | none =>
    cases hw : w.entity? e with
    | none => rfl
    | some y =>
      rw [hw₁, hw] at this
      cases this
  | some x =>
    cases hw : w.entity? e with
    | none =>
      rw [hw₁, hw] at this
      cases this
    | some y =>
      rw [hw₁, hw, Option.map_some, Option.map_some, Option.some.injEq] at this
      rw [Option.map_some, Option.map_some, less x y this]

/-- What the view determines is the same. -/
theorem bind_eq {f : Entity K B → Option β} (h : AgreesOn view w w₁)
    (determined : ∀ x y : Entity K B, view x = view y → f x = f y) (e : EntityId) :
    (w₁.entity? e).bind f = (w.entity? e).bind f := by
  have := congrArg Option.join ((h.mono determined).entity e)
  simpa only [Option.join_map_eq_map_join, Option.bind_id_eq_join, ← Option.bind_id_eq_join,
    Option.bind_map, Function.comp_def, id] using this

/-- A part of the places that the view determines is the same. -/
theorem map_transform? {g : Transform K → β} (h : AgreesOn view w w₁)
    (determined : ∀ x y : Entity K B, view x = view y → x.transform.map g = y.transform.map g)
    (e : EntityId) : (w₁.transform? e).map g = (w.transform? e).map g := by
  simpa only [World.transform?, Option.map_bind, Function.comp_def] using h.bind_eq determined e

/-- A note in the journal changes no view of the scene. -/
theorem record (w : World K B) (event : Event K B) : AgreesOn view w (w.record event) :=
  ⟨rfl, rfl, fun _ => rfl⟩

/-- Changing an entity in what the view does not show. -/
theorem modifyEntity {e : EntityId} {f : Entity K B → Entity K B}
    (same : ∀ x, w.entity? e = some x → view (f x) = view x) :
    AgreesOn view w (w.modifyEntity e f) := by
  refine ⟨rfl, Array.size_modify, fun other => ?_⟩
  rw [World.entity?_modifyEntity]
  split
  · rename_i h
    subst h
    cases hx : w.entity? other with
    | none => rfl
    | some x => rw [Option.map_some, Option.map_some, Option.map_some, same x hx]
  · rfl

/-- Changing a place in what the view does not show. -/
theorem modifyTransform {e : EntityId} {f : Transform K → Transform K}
    (same : ∀ x t, w.entity? e = some x → x.transform = some t →
      view { x with transform := some (f t) } = view x) :
    AgreesOn view w (w.modifyTransform e f) := by
  refine modifyEntity fun x hx => ?_
  cases ht : x.transform with
  | none => rw [Option.map_none, ← ht]
  | some t => rw [Option.map_some]; exact same x t hx ht

/-- A loop whose rounds agree. -/
theorem foldl {l : List β} {f : World K B → β → World K B}
    (round : ∀ w b, AgreesOn view w (f w b)) (w : World K B) : AgreesOn view w (l.foldl f w) := by
  induction l generalizing w with
  | nil => exact refl w
  | cons b l ih => exact (round w b).trans (ih (f w b))

end AgreesOn

/-! ## What agreeing worlds have in common -/

namespace AgreesOn

variable {view : Entity K B → α} {w w' : World K B}

/-- Settling leaves the links as they are. -/
theorem sameLinks (h : Settles w w') : SameLinks w w' := by
  refine h.mono fun x y hxy => ?_
  simp only [Entity.settled, Prod.mk.injEq] at hxy
  obtain ⟨hactor, hanchoring, hslots, hplace⟩ := hxy
  simp only [Entity.linked, hactor, hanchoring, hslots, Prod.mk.injEq, true_and]
  have := congrArg (Option.map fun p => (p.1, p.2.1)) hplace
  simpa only [Option.map_map, Function.comp_def, Entity.fixedPlace] using this

/-- Whatever keeps the links moves only the placements. -/
theorem onlyPlaces (h : SameLinks w w') : OnlyPlaces w w' := by
  refine h.mono fun x y hxy => ?_
  simp only [Entity.linked, Prod.mk.injEq] at hxy
  obtain ⟨hactor, hanchoring, hslots, hplace⟩ := hxy
  have := congrArg Option.isSome hplace
  simp only [Option.isSome_map] at this
  simp only [Entity.unplaced, hactor, hanchoring, hslots, this]

/-- Moving the placements leaves the actors alone. -/
theorem actor? (h : OnlyPlaces w w') (e : EntityId) : w'.actor? e = w.actor? e :=
  h.bind_eq (fun x y hxy => by simp_all [Entity.unplaced]) e

/-- Moving the placements leaves the anchorings alone. -/
theorem anchoring? (h : OnlyPlaces w w') (e : EntityId) : w'.anchoring? e = w.anchoring? e :=
  h.bind_eq (fun x y hxy => by simp_all [Entity.unplaced]) e

/-- Moving the placements leaves the components alone. -/
theorem slots? (h : OnlyPlaces w w') (e : EntityId) : w'.slots? e = w.slots? e :=
  h.bind_eq (fun x y hxy => by simp_all [Entity.unplaced]) e

/-- Moving the placements neither makes nor removes a transform. -/
theorem isSome_transform? (h : OnlyPlaces w w') (e : EntityId) :
    (w'.transform? e).isSome = (w.transform? e).isSome := by
  have := h.map_transform? (g := fun _ => ()) (fun x y hxy => ?_) e
  · simpa only [Option.isSome_map] using congrArg Option.isSome this
  · simp only [Entity.unplaced, Prod.mk.injEq] at hxy
    cases hx : x.transform <;> cases hy : y.transform <;> simp_all

/-- Keeping the links keeps, for every entity, its parent together with its children. -/
theorem map_links (h : SameLinks w w') (e : EntityId) :
    (w'.transform? e).map (fun t => (t.parent, t.children))
      = (w.transform? e).map fun t => (t.parent, t.children) :=
  h.map_transform? (fun x y hxy => by simp_all [Entity.linked]) e

/-- Keeping the links keeps the parent of every entity. -/
theorem parent? (h : SameLinks w w') (e : EntityId) : w'.parent? e = w.parent? e := by
  have := congrArg (Option.bind · Prod.fst) (h.map_links e)
  simpa only [World.parent?, Option.bind_map, Function.comp_def] using this

/-- Keeping the links keeps the children of every entity. -/
theorem children (h : SameLinks w w') (e : EntityId) : w'.children e = w.children e := by
  have := h.map_links e
  unfold World.children
  cases hw' : w'.transform? e <;> cases hw : w.transform? e <;> simp_all

end AgreesOn

/-! ## Queries and invalidation settle places -/

namespace World

/-- Telling a subtree that its matrices are stale settles. -/
theorem settles_invalidate (w : World K B) (e : EntityId) : Settles w (w.invalidate e) :=
  AgreesOn.foldl (fun _ _ => AgreesOn.modifyTransform fun _ _ _ ht => by
    simp only [Entity.settled, ht, Option.map_some, Entity.fixedPlace, Transform.invalidated]) w

variable [Scalar K]

/-- Laying out an anchored entity settles. -/
theorem settles_applyLayout (w : World K B) (e : EntityId) : Settles w (w.applyLayout e) := by
  unfold applyLayout
  split
  · rename_i derived hderived
    refine AgreesOn.modifyTransform fun x t hx ht => ?_
    have hlaid : x.anchoring.isSome = true := by
      simp only [derivedPosition?, Option.map_eq_some_iff, anchoring?, hx, Option.bind_some]
        at hderived
      obtain ⟨a, ha, -⟩ := hderived
      rw [ha, Option.isSome_some]
    simp only [Entity.settled, ht, Option.map_some, Entity.fixedPlace, hlaid, if_true]
  · exact AgreesOn.refl w

omit [Scalar K] in
/-- Keeping a matrix settles a place. -/
theorem settles_keepMatrices (w : World K B) (e : EntityId)
    (matrices : Transform K → Option (Mat4 K) × Option (Mat4 K)) :
    Settles w (w.modifyTransform e fun t =>
      { t with localToWorld := (matrices t).1, worldToLocal := (matrices t).2 }) :=
  AgreesOn.modifyTransform fun _ _ _ ht => by
    simp only [Entity.settled, ht, Option.map_some, Entity.fixedPlace]

/-- Climbing for a matrix settles. -/
theorem settles_localToWorldFrom (steps : Nat) (w : World K B) (e : EntityId) :
    Settles w (localToWorldFrom steps w e).2 := by
  induction steps generalizing w e with
  | zero =>
    unfold localToWorldFrom
    split
    · exact AgreesOn.refl w
    · rename_i t _
      split
      · exact AgreesOn.refl w
      · refine AgreesOn.trans ?_ (settles_keepMatrices _ e fun _ => (_, none))
        cases t.parent with
        | none => exact settles_applyLayout w e
        | some parent => exact settles_applyLayout w e
  | succ steps ih =>
    unfold localToWorldFrom
    split
    · exact AgreesOn.refl w
    · rename_i t _
      split
      · exact AgreesOn.refl w
      · refine AgreesOn.trans ?_ (settles_keepMatrices _ e fun _ => (_, none))
        cases t.parent with
        | none => exact settles_applyLayout w e
        | some parent => exact (settles_applyLayout w e).trans (ih _ parent)

/-- Asking for a world matrix settles. -/
theorem settles_localToWorld (w : World K B) (e : EntityId) : Settles w (w.localToWorld e).2 :=
  settles_localToWorldFrom _ w e

/-- Asking for an inverse settles. -/
theorem settles_worldToLocal (w : World K B) (e : EntityId) : Settles w (w.worldToLocal e).2 := by
  have known := settles_localToWorld w e
  unfold worldToLocal
  split
  · exact AgreesOn.refl w
  · split
    · rename_i w' heq
      rw [heq] at known
      exact known
    · rename_i matrix w' heq
      rw [heq] at known
      exact known.trans (settles_keepMatrices _ e fun t => (t.localToWorld, _))

/-- Asking for a world position settles. -/
theorem settles_worldPosition (w : World K B) (e : EntityId) : Settles w (w.worldPosition e).2 :=
  settles_localToWorld w e

/-- Asking for a point into the world settles. -/
theorem settles_localToWorldPoint (w : World K B) (e : EntityId) (v : Vec3 K) :
    Settles w (w.localToWorldPoint e v).2 :=
  settles_localToWorld w e

/-- Asking for a point out of the world settles. -/
theorem settles_worldToLocalPoint (w : World K B) (e : EntityId) (v : Vec3 K) :
    Settles w (w.worldToLocalPoint e v).2 :=
  settles_worldToLocal w e

/-- Asking for a world rectangle settles. -/
theorem settles_worldRect (w : World K B) (e : EntityId) : Settles w (w.worldRect e).2 := by
  unfold worldRect
  split
  · exact AgreesOn.refl w
  · rename_i rect _
    have low := settles_localToWorldPoint w e (rect.low.lift 0)
    split
    · rename_i heq
      rw [heq] at low
      exact low
    · rename_i w' heq
      rw [heq] at low
      have high := settles_localToWorldPoint w' e (rect.high.lift 0)
      split
      · rename_i heq
        rw [heq] at high
        exact low.trans high
      · rename_i heq
        rw [heq] at high
        exact low.trans high

/-- Asking for a hit settles. -/
theorem settles_rectContains (w : World K B) (e : EntityId) (point : Vec2 K) :
    Settles w (w.rectContains e point).2 :=
  settles_worldRect w e

/-- Asking for a row of a snapshot settles. -/
theorem settles_row (w : World K B) (e : EntityId) : Settles w (w.row e).2 := by
  unfold row
  split
  · exact AgreesOn.refl w
  · dsimp only
    split
    · exact AgreesOn.refl w
    · exact settles_worldPosition w e

/-- Asking for a snapshot settles. -/
theorem settles_snapshot (w : World K B) : Settles w w.snapshot.2 := by
  have rows : ∀ (f : List (Option (EntityRow K)) × World K B → EntityId →
      List (Option (EntityRow K)) × World K B), (∀ s e, Settles s.2 (f s e).2) →
      ∀ (l : List EntityId) s, Settles s.2 (l.foldl f s).2 := by
    intro f hf l
    induction l with
    | nil => exact fun s => AgreesOn.refl s.2
    | cons e l ih => exact fun s => (hf s e).trans (ih (f s e))
  unfold snapshot
  exact rows _ (fun s e => settles_row s.2 e) _ ([], w)

/-! ## Setters keep the tree -/

omit [Scalar K] in
/-- Telling a subtree that its matrices are stale keeps the links. -/
theorem sameLinks_invalidate (w : World K B) (e : EntityId) : SameLinks w (w.invalidate e) :=
  (settles_invalidate w e).sameLinks

omit [Scalar K] in
/-- Placing an entity by its local parts keeps the links. -/
theorem sameLinks_place (w : World K B) (e : EntityId) (placement : Placement K) :
    SameLinks w (w.place e placement) := by
  unfold place
  split
  · refine AgreesOn.trans (AgreesOn.modifyTransform fun x t hx ht => ?_)
      (sameLinks_invalidate _ e)
    cases placement <;> simp only [Entity.linked, ht, placed, Option.map_some]
  · exact AgreesOn.record w _

/-- Carrying a placement into the space of a parent keeps the links. -/
theorem sameLinks_inParentSpace (w : World K B) (parent : EntityId) (placement : Placement K) :
    SameLinks w (w.inParentSpace parent placement).2 := by
  cases placement with
  | position v => exact (settles_worldToLocal w parent).sameLinks
  | rotation q => exact AgreesOn.refl w
  | scale v => exact AgreesOn.refl w

/-- Placing an entity in the world keeps the links. -/
theorem sameLinks_placeInWorld (w : World K B) (e : EntityId) (placement : Placement K) :
    SameLinks w (w.placeInWorld e placement) := by
  unfold placeInWorld
  split
  · exact AgreesOn.record w _
  · split
    · exact sameLinks_place w e placement
    · rename_i parent _
      exact (sameLinks_inParentSpace w parent placement).trans (sameLinks_place _ e _)

/-- Moving an entity keeps the links. -/
theorem sameLinks_translate (w : World K B) (e : EntityId) (offset : Vec3 K) (space : Space) :
    SameLinks w (w.translate e offset space) := by
  unfold translate
  split
  · split
    · exact sameLinks_place w e _
    · exact AgreesOn.refl w
  · have known := (settles_worldPosition w e).sameLinks
    split
    · rename_i heq
      rw [heq] at known
      exact known.trans (sameLinks_placeInWorld _ e _)
    · rename_i heq
      rw [heq] at known
      exact known

/-- Turning an entity keeps the links. -/
theorem sameLinks_rotate (w : World K B) (e : EntityId) (rotation : Quat K) (space : Space) :
    SameLinks w (w.rotate e rotation space) := by
  unfold rotate
  split
  · split
    · exact sameLinks_place w e _
    · exact AgreesOn.refl w
  · split
    · exact sameLinks_placeInWorld w e _
    · exact AgreesOn.refl w

/-- Turning an entity around a point keeps the links. -/
theorem sameLinks_rotateAround (w : World K B) (e : EntityId) (point : Vec3 K)
    (rotation : Quat K) : SameLinks w (w.rotateAround e point rotation) := by
  have known := (settles_worldPosition w e).sameLinks
  unfold rotateAround
  split
  · rename_i heq
    rw [heq] at known
    exact known
  · rename_i heq
    rw [heq] at known
    exact (known.trans (sameLinks_placeInWorld _ e _)).trans (sameLinks_rotate _ e _ _)

/-! ## Changes of the links keep everything but places -/

omit [Scalar K] in
/-- Changing one transform moves only placements and links. -/
theorem onlyPlaces_modifyTransform (w : World K B) (e : EntityId)
    (f : Transform K → Transform K) : OnlyPlaces w (w.modifyTransform e f) :=
  AgreesOn.modifyTransform fun _ _ _ ht => by simp only [Entity.unplaced, ht, Option.isSome_some]

omit [Scalar K] in
/-- Telling a subtree that it is stale moves only placements and links. -/
theorem onlyPlaces_invalidate (w : World K B) (e : EntityId) : OnlyPlaces w (w.invalidate e) :=
  (sameLinks_invalidate w e).onlyPlaces

omit [Scalar K] in
/-- Taking an entity out of its parent's list moves only placements and links. -/
theorem onlyPlaces_leave (w : World K B) (e : EntityId) : OnlyPlaces w (w.leave e) := by
  unfold leave
  split
  · exact onlyPlaces_modifyTransform w _ _
  · exact AgreesOn.refl w

omit [Scalar K] in
/-- Naming the parent of an entity moves only placements and links. -/
theorem onlyPlaces_linkUp (w : World K B) (e : EntityId) (parent : Option EntityId) :
    OnlyPlaces w (w.linkUp e parent) :=
  onlyPlaces_modifyTransform w e _

omit [Scalar K] in
/-- Putting an entity into a parent's list moves only placements and links. -/
theorem onlyPlaces_join (w : World K B) (e : EntityId) (parent : Option EntityId) :
    OnlyPlaces w (w.join e parent) := by
  unfold join
  split
  · exact onlyPlaces_modifyTransform w _ _
  · exact AgreesOn.refl w

omit [Scalar K] in
/-- Reparenting an entity moves only placements and links. -/
theorem onlyPlaces_setParent (w : World K B) (e : EntityId) (parent : Option EntityId) :
    OnlyPlaces w (w.setParent e parent).2 := by
  unfold setParent
  split
  · exact AgreesOn.record w _
  · exact (((onlyPlaces_leave w e).trans (onlyPlaces_linkUp _ e parent)).trans
      (onlyPlaces_join _ e parent)).trans (onlyPlaces_invalidate _ e)

omit [Scalar K] in
/-- Removing a child moves only placements and links. -/
theorem onlyPlaces_removeChild (w : World K B) (parent child : EntityId) :
    OnlyPlaces w (w.removeChild parent child) := by
  unfold removeChild
  split
  · exact onlyPlaces_setParent w child none
  · exact AgreesOn.refl w

omit [Scalar K] in
/-- Leaving an entity without a parent moves only placements and links. -/
theorem onlyPlaces_orphan (w : World K B) (e : EntityId) : OnlyPlaces w (w.orphan e) :=
  (onlyPlaces_linkUp w e none).trans (onlyPlaces_invalidate _ e)

omit [Scalar K] in
/-- Cutting an entity's own links moves only placements and links. -/
theorem onlyPlaces_cut (w : World K B) (e : EntityId) : OnlyPlaces w (w.cut e) :=
  (onlyPlaces_leave w e).trans (onlyPlaces_modifyTransform _ e _)

omit [Scalar K] in
/-- Detaching an entity from its neighbours moves only placements and links. -/
theorem onlyPlaces_detach (w : World K B) (e : EntityId) : OnlyPlaces w (w.detach e) :=
  (onlyPlaces_cut w e).trans (AgreesOn.foldl onlyPlaces_orphan _)

end World

end SheepScene
