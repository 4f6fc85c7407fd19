import SheepScene.Proofs.Scene.Agreement
import SheepScene.Proofs.Scene.Tree
import SheepScene.Scene.Roster

/-!
# Changes of the tree

What putting an entity under a parent, cutting its links, creating it and dropping it do to the
links of the tree, link by link, and that a tree that is linked well stays so. A parent is refused
if it is below the entity that is to be put under it, which is what keeps cycles out.
-/

set_option autoImplicit false

namespace SheepScene.World

variable {K B : Type}

/-! ## Reading through a change -/

/-- What a change to one place does to all. -/
theorem transform?_modifyTransform (w : World K B) (e x : EntityId)
    (f : Transform K → Transform K) :
    (w.modifyTransform e f).transform? x
      = if x = e then (w.transform? x).map f else w.transform? x := by
  unfold modifyTransform transform?
  rw [entity?_modifyEntity]
  split
  · cases w.entity? x with
    | none => rfl
    | some entity => rfl
  · rfl

/-- The children of an entity are those of its place. -/
theorem children_eq (w : World K B) (x : EntityId) :
    w.children x = ((w.transform? x).map (·.children)).getD [] := by
  unfold children
  cases w.transform? x <;> rfl

/-- Linking up names the parent of that entity alone. -/
theorem parent?_linkUp (w : World K B) {e : EntityId} (parent : Option EntityId)
    (he : (w.transform? e).isSome) (x : EntityId) :
    (w.linkUp e parent).parent? x = if x = e then parent else w.parent? x := by
  unfold parent? linkUp
  rw [transform?_modifyTransform]
  split
  · rename_i hx
    subst hx
    obtain ⟨t, ht⟩ := Option.isSome_iff_exists.1 he
    rw [ht]
    rfl
  · rfl

/-- Linking up leaves all children alone. -/
theorem children_linkUp (w : World K B) (e : EntityId) (parent : Option EntityId)
    (x : EntityId) : (w.linkUp e parent).children x = w.children x := by
  rw [linkUp, children_eq, children_eq, transform?_modifyTransform]
  split
  · cases w.transform? x <;> rfl
  · rfl

/-- Changing the children of an entity leaves all parents alone. -/
theorem parent?_modifyChildren (w : World K B) (e : EntityId)
    (g : List EntityId → List EntityId) (x : EntityId) :
    (w.modifyTransform e fun t => { t with children := g t.children }).parent? x
      = w.parent? x := by
  unfold parent?
  rw [transform?_modifyTransform]
  split
  · cases w.transform? x <;> rfl
  · rfl

/-- Changing the children of an entity leaves all other children alone. -/
theorem children_modifyChildren (w : World K B) {e : EntityId} (he : (w.transform? e).isSome)
    (g : List EntityId → List EntityId) (x : EntityId) :
    (w.modifyTransform e fun t => { t with children := g t.children }).children x
      = if x = e then g (w.children x) else w.children x := by
  rw [children_eq, children_eq, transform?_modifyTransform]
  split
  · rename_i hx
    subst hx
    obtain ⟨t, ht⟩ := Option.isSome_iff_exists.1 he
    rw [ht]
    rfl
  · rfl

/-- Taking a child off a list leaves all parents alone. -/
theorem parent?_unlinkChild (w : World K B) (parent child x : EntityId) :
    (w.unlinkChild parent child).parent? x = w.parent? x :=
  parent?_modifyChildren w parent _ x

/-- Taking a child off a list takes it off no other list. -/
theorem children_unlinkChild (w : World K B) (parent child x : EntityId) :
    (w.unlinkChild parent child).children x
      = if x = parent then (w.children x).filter (· != child) else w.children x := by
  by_cases hparent : (w.transform? parent).isSome
  · exact children_modifyChildren w hparent _ x
  · rw [unlinkChild, children_eq, children_eq, transform?_modifyTransform]
    split
    · rename_i hx
      subst hx
      rw [Option.not_isSome_iff_eq_none.1 hparent]
      rfl
    · rfl

/-- Telling a subtree that it is stale leaves all parents alone. -/
theorem parent?_invalidate (w : World K B) (e x : EntityId) :
    (w.invalidate e).parent? x = w.parent? x :=
  (sameLinks_invalidate w e).parent? x

/-- Telling a subtree that it is stale leaves all children alone. -/
theorem children_invalidate (w : World K B) (e x : EntityId) :
    (w.invalidate e).children x = w.children x :=
  (sameLinks_invalidate w e).children x

/-! ## Putting an entity under a parent -/

/-- What has to hold for an entity to be put under a parent. -/
theorem parentRefusal_eq_none_iff (w : World K B) (e : EntityId) (parent : Option EntityId) :
    w.parentRefusal e parent = none ↔ (w.transform? e).isSome ∧
      ∀ p, parent = some p → (w.transform? p).isSome ∧ p ≠ e ∧ w.isAncestor e p = false := by
  unfold parentRefusal
  cases ht : w.transform? e with
  | none => simp
  | some t =>
    cases parent with
    | none => simp
    | some p => cases hp : w.transform? p <;> simp [hp]

/-- Leaving its parent's list, an entity still names the parent. -/
theorem parent?_leave (w : World K B) (e x : EntityId) :
    (w.leave e).parent? x = w.parent? x := by
  unfold leave
  split
  · exact parent?_unlinkChild w _ e x
  · rfl

/-- An entity that only its parent has among its children is among nobody's children after leaving
the parent. -/
theorem children_leave {w : World K B} {e : EntityId}
    (only : ∀ x, e ∈ w.children x → w.parent? e = some x) (x : EntityId) :
    (w.leave e).children x = (w.children x).filter (· != e) := by
  have elsewhere : w.parent? e ≠ some x → (w.children x).filter (· != e) = w.children x := by
    intro hne
    refine List.filter_eq_self.2 fun y hy => ?_
    have hye : y ≠ e := by
      rintro rfl
      exact hne (only x hy)
    simpa using hye
  unfold leave
  cases hold : w.parent? e with
  | none => exact (elsewhere (by simp [hold])).symm
  | some old =>
    rw [children_unlinkChild]
    by_cases hx : x = old
    · rw [if_pos hx]
    · rw [if_neg hx, elsewhere]
      simpa [hold] using Ne.symm hx

/-- In a well-linked scene it is on no list after that. -/
theorem WellLinked.children_leave {w : World K B} (h : w.WellLinked) (e x : EntityId) :
    (w.leave e).children x = (w.children x).filter (· != e) :=
  World.children_leave (fun y hy => (h.linked e y).2 hy) x

/-- Joining a list leaves all parents alone. -/
theorem parent?_join (w : World K B) (e : EntityId) (parent : Option EntityId) (x : EntityId) :
    (w.join e parent).parent? x = w.parent? x := by
  unfold join
  split
  · exact parent?_modifyChildren w _ (· ++ [e]) x
  · rfl

/-- Joining a list puts the entity at the end of that list alone. -/
theorem children_join (w : World K B) (e : EntityId) {parent : Option EntityId}
    (hparent : ∀ p, parent = some p → (w.transform? p).isSome) (x : EntityId) :
    (w.join e parent).children x = w.children x ++ if parent = some x then [e] else [] := by
  unfold join
  cases parent with
  | none => rw [if_neg (by simp), List.append_nil]
  | some p =>
    rw [children_modifyChildren w (hparent p rfl) (· ++ [e])]
    by_cases hx : x = p
    · rw [if_pos hx, if_pos (by rw [hx])]
    · rw [if_neg hx, if_neg (fun h => hx (Option.some.inj h).symm), List.append_nil]

section SetParent

variable {w : World K B} {e : EntityId} {parent : Option EntityId}

/-- Parents after an entity has been put under one. -/
theorem parent?_setParent (accepted : w.parentRefusal e parent = none) (x : EntityId) :
    (w.setParent e parent).2.parent? x = if x = e then parent else w.parent? x := by
  have he := ((parentRefusal_eq_none_iff w e parent).1 accepted).1
  have left : ((w.leave e).transform? e).isSome :=
    ((onlyPlaces_leave w e).isSome_transform? e).trans he
  rw [setParent, accepted, parent?_invalidate, parent?_join, parent?_linkUp _ parent left,
    parent?_leave]

/-- Children after an entity has been put under a parent: it leaves the old one and is the last of
the new one. -/
theorem children_setParent (accepted : w.parentRefusal e parent = none) (x : EntityId) :
    (w.setParent e parent).2.children x
      = (w.leave e).children x ++ if parent = some x then [e] else [] := by
  obtain ⟨-, hparent⟩ := (parentRefusal_eq_none_iff w e parent).1 accepted
  have moved := (onlyPlaces_leave w e).trans (onlyPlaces_linkUp _ e parent)
  have there : ∀ p, parent = some p → (((w.leave e).linkUp e parent).transform? p).isSome :=
    fun p hp => (moved.isSome_transform? p).trans (hparent p hp).1
  rw [setParent, accepted, children_invalidate, children_join _ e there, children_linkUp]

/-- A path up the new tree is one up the old tree, or leads through the new link. -/
theorem transGen_setParent (accepted : w.parentRefusal e parent = none) {x y : EntityId}
    (hpath : Relation.TransGen (w.setParent e parent).2.Above x y) :
    Relation.TransGen w.Above x y ∨
      ∃ p, parent = some p ∧ w.Below x e ∧ w.Below p y := by
  have step : ∀ {a b}, (w.setParent e parent).2.Above a b →
      (a = e ∧ parent = some b) ∨ w.Above a b := by
    intro a b hab
    unfold Above at hab
    rw [parent?_setParent accepted] at hab
    by_cases ha : a = e
    · rw [if_pos ha] at hab
      exact .inl ⟨ha, hab⟩
    · rw [if_neg ha] at hab
      exact .inr hab
  induction hpath with
  | single hxy =>
    rcases step hxy with ⟨rfl, hp⟩ | hold
    · exact .inr ⟨_, hp, .refl, .refl⟩
    · exact .inl (.single hold)
  | tail _ hby ih =>
    rcases step hby with ⟨rfl, hp⟩ | hold
    · rcases ih with hxb | ⟨_, _, hxe, _⟩
      · exact .inr ⟨_, hp, hxb.to_reflTransGen, .refl⟩
      · exact .inr ⟨_, hp, hxe, .refl⟩
    · rcases ih with hxb | ⟨p, hp, hxe, hpb⟩
      · exact .inl (hxb.tail hold)
      · exact .inr ⟨p, hp, hxe, hpb.tail hold⟩

/-- Putting an entity under a parent closes no cycle: a cycle through the new link would lead from
the parent up to the entity. -/
theorem acyclic_setParent (acyclic : ∀ x, ¬ Relation.TransGen w.Above x x) (e : EntityId)
    (parent : Option EntityId) (x : EntityId) :
    ¬ Relation.TransGen (w.setParent e parent).2.Above x x := by
  intro hcycle
  cases accepted : w.parentRefusal e parent with
  | some reason =>
    rw [World.setParent, accepted] at hcycle
    exact acyclic x hcycle
  | none =>
    obtain ⟨he, hparent⟩ := (parentRefusal_eq_none_iff w e parent).1 accepted
    rcases transGen_setParent accepted hcycle with hold | ⟨p, hp, hxe, hpx⟩
    · exact acyclic x hold
    · obtain ⟨-, hpe, hanc⟩ := hparent p hp
      have hbelow : w.Below p e := hpx.trans hxe
      rcases Relation.reflTransGen_iff_eq_or_transGen.1 hbelow with heq | htrans
      · exact hpe heq.symm
      · rw [(isAncestor_iff acyclic).2 htrans] at hanc
        cases hanc

/-- Putting an entity under a parent keeps a tree linked well. -/
theorem WellLinked.setParent (h : w.WellLinked) (e : EntityId) (parent : Option EntityId) :
    (w.setParent e parent).2.WellLinked := by
  cases accepted : w.parentRefusal e parent with
  | some reason =>
    rw [World.setParent, accepted]
    exact h.congr (fun _ => rfl) (fun _ => rfl)
  | none =>
    have children : ∀ q, (w.setParent e parent).2.children q
        = (w.children q).filter (· != e) ++ if parent = some q then [e] else [] := by
      intro q
      rw [children_setParent accepted, h.children_leave]
    refine ⟨fun x q => ?_, fun q => ?_, acyclic_setParent h.acyclic e parent⟩
    · rw [parent?_setParent accepted, children, List.mem_append, List.mem_filter]
      by_cases hx : x = e
      · by_cases hq : parent = some q <;> simp [hx, hq]
      · rw [if_neg hx, h.linked]
        by_cases hq : parent = some q <;> simp [hx, hq]
    · rw [children]
      have hbase := (h.nodup q).filter (· != e)
      by_cases hq : parent = some q
      · rw [if_pos hq]
        refine hbase.append (List.nodup_singleton e) fun x hx hxe => ?_
        rw [List.mem_singleton.1 hxe] at hx
        simp at hx
      · rwa [if_neg hq, List.append_nil]

end SetParent

/-! ## Cutting the links of an entity -/

/-- An orphan has no parent, and all others have theirs. -/
theorem parent?_orphan (w : World K B) (e x : EntityId) :
    (w.orphan e).parent? x = if x = e then none else w.parent? x := by
  rw [orphan, parent?_invalidate]
  cases he : w.transform? e with
  | some t => exact parent?_linkUp w none (by rw [he, Option.isSome_some]) x
  | none =>
    rw [linkUp, parent?, transform?_modifyTransform]
    split
    · rename_i hx
      rw [hx, he]
      rfl
    · rfl

/-- Its own children, and all others, stay. -/
theorem children_orphan (w : World K B) (e x : EntityId) :
    (w.orphan e).children x = w.children x := by
  rw [orphan, children_invalidate, children_linkUp]

/-- Of entities that are made orphans, all lose their parents, and nobody else does. -/
theorem parent?_foldl_orphan (l : List EntityId) (w : World K B) (x : EntityId) :
    (l.foldl orphan w).parent? x = if x ∈ l then none else w.parent? x := by
  induction l generalizing w with
  | nil => rw [if_neg List.not_mem_nil, List.foldl_nil]
  | cons e l ih =>
    rw [List.foldl_cons, ih, parent?_orphan]
    by_cases hl : x ∈ l
    · rw [if_pos hl, if_pos (List.mem_cons_of_mem _ hl)]
    · rw [if_neg hl]
      by_cases hx : x = e
      · rw [if_pos hx, if_pos (hx ▸ List.mem_cons_self ..)]
      · rw [if_neg hx, if_neg (by simp [hx, hl])]

/-- Making orphans leaves all children alone. -/
theorem children_foldl_orphan (l : List EntityId) (w : World K B) (x : EntityId) :
    (l.foldl orphan w).children x = w.children x := by
  induction l generalizing w with
  | nil => rfl
  | cons e l ih => rw [List.foldl_cons, ih, children_orphan]

/-- An entity that is cut has no parent, and all others have theirs. -/
theorem parent?_cut (w : World K B) (e x : EntityId) :
    (w.cut e).parent? x = if x = e then none else w.parent? x := by
  rw [cut, parent?, transform?_modifyTransform]
  split
  · cases (w.leave e).transform? x <;> rfl
  · exact parent?_leave w e x

/-- An entity that is cut has no children and is on nobody's list. -/
theorem children_cut (w : World K B) (e x : EntityId) :
    (w.cut e).children x = if x = e then [] else (w.leave e).children x := by
  rw [cut, children_eq, transform?_modifyTransform]
  split
  · cases (w.leave e).transform? x <;> rfl
  · exact (children_eq _ x).symm

/-- Parents after the links of an entity have been cut. -/
theorem parent?_detach (w : World K B) (e x : EntityId) :
    (w.detach e).parent? x = if x = e ∨ x ∈ w.children e then none else w.parent? x := by
  rw [detach, parent?_foldl_orphan, parent?_cut]
  by_cases hl : x ∈ w.children e
  · rw [if_pos hl, if_pos (.inr hl)]
  · rw [if_neg hl]
    by_cases hx : x = e
    · rw [if_pos hx, if_pos (.inl hx)]
    · rw [if_neg hx, if_neg (by simp [hx, hl])]

/-- Children after the links of an entity have been cut. -/
theorem children_detach (w : World K B) (e x : EntityId) :
    (w.detach e).children x = if x = e then [] else (w.leave e).children x := by
  rw [detach, children_foldl_orphan, children_cut]

/-- Cutting links makes no new ones. -/
theorem above_detach_le (w : World K B) (e : EntityId) : (w.detach e).Above ≤ w.Above := by
  intro x y hxy
  unfold Above at hxy
  rw [parent?_detach] at hxy
  split at hxy
  · cases hxy
  · exact hxy

/-- Detaching makes no cycles. -/
theorem acyclic_detach {w : World K B} (acyclic : ∀ x, ¬ Relation.TransGen w.Above x x)
    (e x : EntityId) : ¬ Relation.TransGen (w.detach e).Above x x :=
  fun hcycle => acyclic x (Relation.TransGen.mono (above_detach_le w e) x x hcycle)

/-- Cutting the links of an entity keeps a tree linked well. -/
theorem WellLinked.detach {w : World K B} (h : w.WellLinked) (e : EntityId) :
    (w.detach e).WellLinked := by
  refine ⟨fun x q => ?_, fun q => ?_, acyclic_detach h.acyclic e⟩
  · rw [parent?_detach, children_detach, h.children_leave]
    by_cases hq : q = e
    · -- nobody is left below the entity
      by_cases hchild : x ∈ w.children e
      · simp [hq, hchild]
      · have hne : w.parent? x ≠ some e := mt (h.linked x e).1 hchild
        simp [hq, hchild, hne]
    · rw [if_neg hq, List.mem_filter, ← h.linked x q]
      by_cases hx : x = e
      · simp [hx]
      · by_cases hchild : x ∈ w.children e
        · have hparent : w.parent? x = some e := (h.linked x e).2 hchild
          simp [hx, hchild, hparent, Ne.symm hq]
        · simp [hx, hchild]
  · rw [children_detach, h.children_leave]
    split
    · exact List.nodup_nil
    · exact (h.nodup q).filter _

/-! ## Entities coming and going -/

/-- An entity that is created is the next one, and the others are as they were. -/
theorem entity?_create (w : World K B) (entity : Entity K B) (x : EntityId) :
    (w.create entity).2.entity? x
      = if x.index = w.entities.size then some entity else w.entity? x := by
  unfold create entity?
  rw [Array.getElem?_push]
  split <;> rfl

/-- An entity with a free place leaves the links as they are. -/
theorem links_create (w : World K B) {entity : Entity K B}
    (free : ∀ t, entity.transform = some t → t.parent = none ∧ t.children = []) (x : EntityId) :
    (w.create entity).2.parent? x = w.parent? x ∧
      (w.create entity).2.children x = w.children x := by
  rw [children_eq, children_eq, parent?, parent?, transform?, transform?, entity?_create]
  split
  · rename_i hx
    have hnone : w.entity? x = none := by
      unfold entity?
      rw [Array.getElem?_eq_none (by omega)]
      rfl
    rw [hnone]
    cases ht : entity.transform with
    | none => simp [ht]
    | some t =>
      obtain ⟨hparent, hchildren⟩ := free t ht
      simp [ht, hparent, hchildren]
  · exact ⟨rfl, rfl⟩

/-- Creating an entity with a free place keeps the links consistent. -/
theorem WellLinked.create {w : World K B} (h : w.WellLinked) {entity : Entity K B}
    (free : ∀ t, entity.transform = some t → t.parent = none ∧ t.children = []) :
    (w.create entity).2.WellLinked :=
  h.congr (fun x => (links_create w free x).1) fun x => (links_create w free x).2

/-- Dropping components lets go of waits and changes nothing else. -/
theorem foldl_dropComponent (components : List (Component K B)) (w : World K B) :
    components.foldl dropComponent w
      = { w with waits := (components.foldl dropComponent w).waits } := by
  induction components generalizing w with
  | nil => rfl
  | cons component components ih =>
    rw [List.foldl_cons, ih]
    unfold dropComponent
    split <;> rfl

/-- Dropping an entity changes entities and waits only. -/
theorem despawn_eq (w : World K B) (e : EntityId) :
    (w.despawn e).2 = { w with
      entities := (w.despawn e).2.entities, waits := (w.despawn e).2.waits } := by
  unfold despawn
  split
  · rfl
  · dsimp only
    rw [foldl_dropComponent]

/-- Despawning does not forget that there has been an entity. -/
theorem size_despawn (w : World K B) (e : EntityId) :
    (w.despawn e).2.entities.size = w.entities.size := by
  unfold despawn
  split
  · rfl
  · dsimp only
    rw [foldl_dropComponent]
    exact Array.size_setIfInBounds

/-- An entity that is dropped is gone, and the others are as they were. -/
theorem entity?_despawn (w : World K B) (e x : EntityId) :
    (w.despawn e).2.entity? x = if x = e then none else w.entity? x := by
  unfold despawn
  cases he : w.entity? e with
  | none =>
    by_cases hx : x = e
    · rw [if_pos hx, hx]
      exact he
    · rw [if_neg hx]
  | some entity =>
    dsimp only
    rw [foldl_dropComponent]
    obtain ⟨i⟩ := e
    obtain ⟨j⟩ := x
    unfold entity?
    rw [Array.getElem?_setIfInBounds]
    by_cases hij : i = j
    · subst hij
      rw [if_pos rfl, if_pos rfl]
      split <;> rfl
    · rw [if_neg hij, if_neg (fun h => hij (by cases h; rfl))]

/-- Taking an actor out of the scene: it is gone, and the others are what they are when its links
have been cut. -/
theorem entity?_reclaim (w : World K B) (e x : EntityId) :
    (w.reclaim e).entity? x = if x = e then none else (w.detach e).entity? x :=
  entity?_despawn (w.detach e) e x

/-- Reclaiming leaves parents as detaching does. -/
theorem parent?_reclaim (w : World K B) (e x : EntityId) :
    (w.reclaim e).parent? x = (w.detach e).parent? x := by
  rw [parent?, transform?, entity?_reclaim]
  split
  · rename_i hx
    rw [parent?_detach, if_pos (.inl hx)]
    rfl
  · rfl

/-- Reclaiming leaves children as detaching does. -/
theorem children_reclaim (w : World K B) (e x : EntityId) :
    (w.reclaim e).children x = (w.detach e).children x := by
  rw [children_eq, transform?, entity?_reclaim]
  split
  · rename_i hx
    rw [children_detach, if_pos hx]
    rfl
  · exact (children_eq _ x).symm

/-- Reclaiming keeps the links consistent. -/
theorem WellLinked.reclaim {w : World K B} (h : w.WellLinked) (e : EntityId) :
    (w.reclaim e).WellLinked :=
  (h.detach e).congr (parent?_reclaim w e) (children_reclaim w e)

end SheepScene.World
