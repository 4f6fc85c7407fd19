import Mathlib.Data.List.Perm.Subperm
import Mathlib.Data.List.Nodup
import Mathlib.Logic.Relation
import SheepScene.Scene.Hierarchy

/-!
# Trees that are linked well

Parents and children of a world are links in both directions. In a world that is `WellLinked` they
fit together and form no cycle. Walks through the tree are bounded by the number of entities; here
it is shown that they reach everything they should: the lineage of an entity is itself and all that
is above it, and its subtree is itself and all that is below it.
-/

set_option autoImplicit false

namespace SheepScene.World

variable {K B : Type}

/-- One step up the tree. -/
def Above (w : World K B) (e above : EntityId) : Prop :=
  w.parent? e = some above

/-- An entity is `above` or somewhere below it. -/
abbrev Below (w : World K B) (e above : EntityId) : Prop :=
  Relation.ReflTransGen w.Above e above

/-- The links of a world fit together in both directions and form no cycle. -/
structure WellLinked (w : World K B) : Prop where
  linked : ∀ e parent, w.parent? e = some parent ↔ e ∈ w.children parent
  nodup : ∀ parent, (w.children parent).Nodup
  acyclic : ∀ e, ¬ Relation.TransGen w.Above e e

/-! ## Places are places of entities -/

variable {w : World K B}

/-- An entity that is there is one that there has been. -/
theorem index_lt_of_entity? {e : EntityId} {x : Entity K B} (h : w.entity? e = some x) :
    e.index < w.entities.size := by
  unfold entity? at h
  by_contra hge
  rw [Array.getElem?_eq_none (by omega)] at h
  cases h

/-- An entity with a place is one that there has been. -/
theorem index_lt_of_transform? {e : EntityId} (h : (w.transform? e).isSome) :
    e.index < w.entities.size := by
  obtain ⟨t, ht⟩ := Option.isSome_iff_exists.1 h
  obtain ⟨x, hx, -⟩ := Option.bind_eq_some_iff.1 ht
  exact index_lt_of_entity? hx

/-- Who has a parent has a place. -/
theorem transform?_of_above {e above : EntityId} (h : w.Above e above) :
    (w.transform? e).isSome := by
  obtain ⟨t, ht, -⟩ := Option.bind_eq_some_iff.1 h
  rw [ht, Option.isSome_some]

/-- Who has a child has a place. -/
theorem transform?_of_mem_children {e parent : EntityId} (h : e ∈ w.children parent) :
    (w.transform? parent).isSome := by
  unfold children at h
  cases ht : w.transform? parent with
  | none =>
    rw [ht] at h
    cases h
  | some t => rfl

namespace WellLinked

variable (h : w.WellLinked)
include h

/-- Links lead to places. -/
theorem transform?_parent {e parent : EntityId} (hp : w.Above e parent) :
    (w.transform? parent).isSome :=
  transform?_of_mem_children ((h.linked e parent).1 hp)

/-- Who is above a place has a place. -/
theorem transform?_of_below {e above : EntityId} (he : (w.transform? e).isSome)
    (hbelow : w.Below e above) : (w.transform? above).isSome := by
  cases hbelow with
  | refl => exact he
  | tail _ hlast => exact h.transform?_parent hlast

end WellLinked

/-! ## Lineages -/

/-- Walks up the tree lead to those above. -/
theorem below_of_mem_lineageFrom {steps : Nat} {e x : EntityId}
    (hx : x ∈ w.lineageFrom steps e) : w.Below e x := by
  induction steps generalizing e with
  | zero =>
    unfold lineageFrom at hx
    rw [List.mem_singleton.1 hx]
  | succ steps ih =>
    unfold lineageFrom at hx
    cases hp : w.parent? e with
    | none =>
      rw [hp] at hx
      rw [List.mem_singleton.1 hx]
    | some parent =>
      rw [hp] at hx
      rcases List.mem_cons.1 hx with rfl | hx
      · exact .refl
      · exact .head hp (ih hx)

/-- Lineages begin with the entity itself. -/
theorem lineage_eq_cons (w : World K B) (e : EntityId) : w.lineage e = e :: w.ancestors e := by
  unfold ancestors lineage lineageFrom
  split
  · rfl
  · split <;> rfl

/-- A line of ancestors begins with the entity itself. -/
theorem self_mem_lineage (w : World K B) (e : EntityId) : e ∈ w.lineage e :=
  lineage_eq_cons w e ▸ List.mem_cons_self

/-- One step more does not matter for a walk that does not take it. -/
theorem lineageFrom_succ_eq {steps : Nat} {e : EntityId}
    (hlen : (w.lineageFrom (steps + 1) e).length ≤ steps + 1) :
    w.lineageFrom (steps + 1) e = w.lineageFrom steps e := by
  induction steps generalizing e with
  | zero =>
    unfold lineageFrom at hlen ⊢
    cases hp : w.parent? e with
    | none => rfl
    | some parent =>
      rw [hp] at hlen
      simp [lineageFrom] at hlen
  | succ steps ih =>
    rw [lineageFrom] at hlen
    rw [lineageFrom, lineageFrom]
    cases hp : w.parent? e with
    | none => rfl
    | some parent =>
      rw [hp, List.length_cons] at hlen
      exact congrArg (e :: ·) (ih (by omega))

/-- No walk is empty. -/
theorem lineageFrom_ne_nil (w : World K B) (steps : Nat) (e : EntityId) :
    w.lineageFrom steps e ≠ [] := by
  unfold lineageFrom
  repeat' split
  all_goals exact List.cons_ne_nil _ _

/-- All on a lineage but the last have a place. -/
theorem transform?_of_mem_dropLast {steps : Nat} {e x : EntityId}
    (hx : x ∈ (w.lineageFrom steps e).dropLast) : (w.transform? x).isSome := by
  induction steps generalizing e with
  | zero => cases hx
  | succ steps ih =>
    rw [lineageFrom] at hx
    cases hp : w.parent? e with
    | none =>
      rw [hp] at hx
      cases hx
    | some parent =>
      rw [hp] at hx
      rw [List.dropLast_cons_of_ne_nil (lineageFrom_ne_nil w steps parent)] at hx
      rcases List.mem_cons.1 hx with rfl | hx
      · exact transform?_of_above hp
      · exact ih hx

/-! ### Lineages where links form no cycle -/

section Acyclic

variable (acyclic : ∀ e, ¬ Relation.TransGen w.Above e e)
include acyclic

/-- Nobody is met twice on a walk up, as long as there is no cycle. -/
theorem nodup_lineageFrom (steps : Nat) (e : EntityId) : (w.lineageFrom steps e).Nodup := by
  induction steps generalizing e with
  | zero => exact List.nodup_singleton e
  | succ steps ih =>
    unfold lineageFrom
    cases hp : w.parent? e with
    | none => exact List.nodup_singleton e
    | some parent =>
      refine List.nodup_cons.2 ⟨fun hmem => ?_, ih parent⟩
      exact acyclic e (.head' hp (below_of_mem_lineageFrom hmem))

/-- No walk is longer than there are entities, and at its end it may leave them. -/
theorem length_lineageFrom_le_succ (steps : Nat) (e : EntityId) :
    (w.lineageFrom steps e).length ≤ w.entities.size + 1 := by
  have hnodup : ((w.lineageFrom steps e).dropLast.map EntityId.index).Nodup := by
    refine ((nodup_lineageFrom acyclic steps e).sublist (List.dropLast_sublist _)).map ?_
    exact fun a b hab => congrArg EntityId.mk hab
  have hsub : (w.lineageFrom steps e).dropLast.map EntityId.index ⊆
      List.range w.entities.size := by
    intro i hi
    obtain ⟨x, hx, rfl⟩ := List.mem_map.1 hi
    exact List.mem_range.2 (index_lt_of_transform? (transform?_of_mem_dropLast hx))
  have hle := (hnodup.subperm hsub).length_le
  simp only [List.length_map, List.length_dropLast, List.length_range] at hle
  omega

/-- A lineage is an entity and the lineage of its parent. -/
theorem lineage_eq (e : EntityId) :
    w.lineage e = e :: ((w.parent? e).map w.lineage).getD [] := by
  have hlen := length_lineageFrom_le_succ acyclic (w.entities.size + 1) e
  calc w.lineage e = w.lineageFrom (w.entities.size + 1) e := (lineageFrom_succ_eq hlen).symm
    _ = e :: ((w.parent? e).map w.lineage).getD [] := by
        rw [lineageFrom]
        cases w.parent? e <;> rfl

/-- Without cycles, a line of ancestors has everybody above. -/
theorem mem_lineage_iff {e x : EntityId} : x ∈ w.lineage e ↔ w.Below e x := by
  refine ⟨below_of_mem_lineageFrom, fun hbelow => ?_⟩
  induction hbelow using Relation.ReflTransGen.head_induction_on with
  | refl => exact self_mem_lineage w x
  | head hup _ ih =>
    rw [lineage_eq acyclic, show w.parent? _ = _ from hup]
    exact List.mem_cons_of_mem _ ih

/-- Without cycles, those strictly above an entity make the line of its parent. -/
theorem ancestors_eq (e : EntityId) :
    w.ancestors e = ((w.parent? e).map w.lineage).getD [] := by
  unfold ancestors
  rw [lineage_eq acyclic e, List.drop_one, List.tail_cons]

/-- Being above is what the walk up the tree finds. -/
theorem isAncestor_iff {above e : EntityId} :
    w.isAncestor above e = true ↔ Relation.TransGen w.Above e above := by
  unfold isAncestor
  rw [List.contains_iff_mem, ancestors_eq acyclic, Relation.TransGen.head'_iff]
  constructor
  · intro hmem
    cases hp : w.parent? e with
    | none =>
      rw [hp] at hmem
      cases hmem
    | some parent =>
      rw [hp] at hmem
      exact ⟨parent, hp, (mem_lineage_iff acyclic).1 hmem⟩
  · rintro ⟨parent, hp, hbelow⟩
    rw [show w.parent? e = some parent from hp]
    exact (mem_lineage_iff acyclic).2 hbelow

end Acyclic

namespace WellLinked

variable (h : w.WellLinked)
include h

/-- No walk in a tree that is linked well is longer than there are entities. -/
theorem length_lineageFrom_le {steps : Nat} {e : EntityId} (he : (w.transform? e).isSome) :
    (w.lineageFrom steps e).length ≤ w.entities.size := by
  have hnodup : ((w.lineageFrom steps e).map EntityId.index).Nodup :=
    (nodup_lineageFrom h.acyclic steps e).map fun a b hab => by
      cases a
      cases b
      cases hab
      rfl
  have hsub : (w.lineageFrom steps e).map EntityId.index ⊆ List.range w.entities.size := by
    intro i hi
    obtain ⟨x, hx, rfl⟩ := List.mem_map.1 hi
    rw [List.mem_range]
    exact index_lt_of_transform? (h.transform?_of_below he (below_of_mem_lineageFrom hx))
  simpa using (hnodup.subperm hsub).length_le

/-- In a well-linked scene a line of ancestors goes on with that of the parent. -/
theorem lineage_eq (e : EntityId) :
    w.lineage e = e :: ((w.parent? e).map w.lineage).getD [] :=
  World.lineage_eq h.acyclic e

/-- In a well-linked scene a line of ancestors has everybody above. -/
theorem mem_lineage_iff {e x : EntityId} : x ∈ w.lineage e ↔ w.Below e x :=
  World.mem_lineage_iff h.acyclic

/-- What holds of an entity whenever it holds of its parent holds of all entities. -/
theorem induction {P : EntityId → Prop} (step : ∀ e, (∀ p, w.Above e p → P p) → P e)
    (e : EntityId) : P e := by
  induction hn : (w.lineage e).length using Nat.strongRecOn generalizing e with
  | _ n ih =>
    refine step e fun p hp => ih (w.lineage p).length ?_ p rfl
    rw [← hn, h.lineage_eq e, show w.parent? e = some p from hp]
    exact Nat.lt_succ_self _

end WellLinked

/-! ## Subtrees -/

/-- A subtree has its root. -/
theorem self_mem_subtreeFrom (depth : Nat) (e : EntityId) : e ∈ w.subtreeFrom depth e := by
  cases depth <;> exact List.mem_cons_self ..

/-- One level more reaches the children. -/
theorem mem_subtreeFrom_succ {depth : Nat} {e p x : EntityId} (hp : p ∈ w.subtreeFrom depth e)
    (hx : x ∈ w.children p) : x ∈ w.subtreeFrom (depth + 1) e := by
  induction depth generalizing e with
  | zero =>
    rw [subtreeFrom, List.mem_singleton] at hp
    subst hp
    rw [subtreeFrom, List.mem_cons, List.mem_flatMap]
    exact .inr ⟨x, hx, self_mem_subtreeFrom 0 x⟩
  | succ depth ih =>
    rw [subtreeFrom, List.mem_cons, List.mem_flatMap] at hp ⊢
    right
    rcases hp with rfl | ⟨c, hc, hp⟩
    · exact ⟨x, hx, self_mem_subtreeFrom _ x⟩
    · exact ⟨c, hc, ih hp⟩

namespace WellLinked

variable (h : w.WellLinked)
include h

/-- In a well-linked scene a subtree has only those below. -/
theorem below_of_mem_subtreeFrom {depth : Nat} {e x : EntityId}
    (hx : x ∈ w.subtreeFrom depth e) : w.Below x e := by
  induction depth generalizing e with
  | zero =>
    rw [subtreeFrom, List.mem_singleton] at hx
    rw [hx]
  | succ depth ih =>
    rw [subtreeFrom, List.mem_cons, List.mem_flatMap] at hx
    rcases hx with rfl | ⟨c, hc, hx⟩
    · exact .refl
    · exact .tail (ih hx) ((h.linked c e).2 hc)

/-- A subtree has everybody from whom a walk of as many steps leads to its root. -/
theorem mem_subtreeFrom_of_lineage {steps : Nat} {e x : EntityId}
    (he : e ∈ w.lineageFrom steps x) : x ∈ w.subtreeFrom steps e := by
  induction steps generalizing x with
  | zero =>
    rw [lineageFrom, List.mem_singleton] at he
    rw [he]
    exact self_mem_subtreeFrom 0 x
  | succ steps ih =>
    rw [lineageFrom] at he
    cases hp : w.parent? x with
    | none =>
      rw [hp, List.mem_singleton] at he
      rw [he]
      exact self_mem_subtreeFrom _ x
    | some p =>
      rw [hp] at he
      rcases List.mem_cons.1 he with rfl | he
      · exact self_mem_subtreeFrom _ e
      · exact mem_subtreeFrom_succ (ih he) ((h.linked x p).1 hp)

/-- A subtree is an entity and everything below it. -/
theorem mem_subtree_iff {e x : EntityId} : x ∈ w.subtree e ↔ w.Below x e :=
  ⟨h.below_of_mem_subtreeFrom, fun hbelow =>
    h.mem_subtreeFrom_of_lineage (h.mem_lineage_iff.2 hbelow)⟩

end WellLinked

/-! ## Worlds with the same links -/

section Congruence

variable {w' : World K B}

/-- Who is above whom depends only on the parents. -/
theorem above_congr (parents : ∀ e, w'.parent? e = w.parent? e) : w'.Above = w.Above := by
  funext e above
  unfold Above
  rw [parents e]

/-- Being linked well is a property of the links. -/
theorem WellLinked.congr (h : w.WellLinked) (parents : ∀ e, w'.parent? e = w.parent? e)
    (children : ∀ e, w'.children e = w.children e) : w'.WellLinked where
  linked e parent := by rw [parents, children]; exact h.linked e parent
  nodup parent := by rw [children]; exact h.nodup parent
  acyclic e := by rw [above_congr parents]; exact h.acyclic e

/-- Walks up depend only on the parents. -/
theorem lineageFrom_congr (parents : ∀ e, w'.parent? e = w.parent? e) (steps : Nat)
    (e : EntityId) : w'.lineageFrom steps e = w.lineageFrom steps e := by
  induction steps generalizing e with
  | zero => rfl
  | succ steps ih =>
    unfold lineageFrom
    rw [parents]
    cases w.parent? e with
    | none => rfl
    | some parent => exact congrArg (e :: ·) (ih parent)

/-- Walks down depend only on the children. -/
theorem subtreeFrom_congr (children : ∀ e, w'.children e = w.children e) (depth : Nat)
    (e : EntityId) : w'.subtreeFrom depth e = w.subtreeFrom depth e := by
  induction depth generalizing e with
  | zero => rfl
  | succ depth ih =>
    unfold subtreeFrom
    rw [children, funext ih]

end Congruence

end SheepScene.World
