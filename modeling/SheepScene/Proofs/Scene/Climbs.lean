import SheepScene.Proofs.Scene.Anchors
import SheepScene.Proofs.Scene.Walks

/-!
# Walks up the tree

Asking who is above an entity, whether it is active, how it is turned and stretched, where it is
laid out and what its matrix is all goes from parent to parent, until there is none or the answer is
known. Nothing bounds these walks either; here they are written down as they go, as loops that carry
a value along or as recursions, and it is shown that each of them ends with the answer that the
bounded walk finds, having come to nobody twice (`World.walks_up`).

Together with the walks down this makes `tree_walks_reach_and_end`.
-/

set_option autoImplicit false

namespace SheepScene

variable {K B : Type}

/-! ## The way up -/

namespace World

variable {w : World K B} {o : Option EntityId} {e : EntityId}

/-- An entity and all that is above it, if there is an entity. -/
def chain (w : World K B) (o : Option EntityId) : List EntityId :=
  (o.map w.lineage).getD []

/-- The chain of an entity is the entity and the chain of its parent. -/
theorem chain_some (acyclic : ∀ x, ¬ Relation.TransGen w.Above x x) (e : EntityId) :
    w.chain (some e) = e :: w.chain (w.parent? e) :=
  lineage_eq acyclic e

/-- Nobody stands twice in a line of ancestors. -/
theorem nodup_lineage (acyclic : ∀ x, ¬ Relation.TransGen w.Above x x) (e : EntityId) :
    (w.lineage e).Nodup :=
  nodup_lineageFrom acyclic _ e

/-- A chain depends only on the parents. -/
theorem chain_congr {w' : World K B} (size : w'.entities.size = w.entities.size)
    (parents : ∀ e, w'.parent? e = w.parent? e) (o : Option EntityId) :
    w'.chain o = w.chain o := by
  unfold chain
  rw [funext (lineage_congr size parents)]

/-- A chain begins with the entity it is the chain of. -/
theorem toList_sublist_chain (w : World K B) (o : Option EntityId) :
    o.toList.Sublist (w.chain o) := by
  cases o with
  | none => exact .refl _
  | some e => exact List.singleton_sublist.2 (self_mem_lineage w e)

end World

/-! ## Loops -/

/-- A walk up the tree that carries a value along. -/
structure Climb (S : Type) where
  value : S
  /-- Who is come to next. -/
  next : Option EntityId
  /-- From whom steps to a parent have been taken, the first one first. -/
  passed : List EntityId

namespace Climb

variable {S R : Type}

/-- The beginning of a walk at an entity. -/
def here (v : S) (e : EntityId) : Climb S where
  value := v
  next := some e
  passed := []

/-- The beginning of a walk at the parent of an entity. -/
def above (w : World K B) (v : S) (e : EntityId) : Climb S where
  value := v
  next := w.parent? e
  passed := [e]

/-- One round: a look at whoever is come to either ends the walk with an answer or leaves a value
with which it goes on to the parent. Where nobody is left, it ends, too. -/
def round (w : World K B) (look : S → EntityId → Except R S) (finish : S → R) (s : Climb S) :
    Except R (Climb S) :=
  match s.next with
  | none => .error (finish s.value)
  | some e => (look s.value e).map fun value =>
    { value, next := w.parent? e, passed := s.passed ++ [e] }

/-- The answer of a walk over the given entities. -/
def along (look : S → EntityId → Except R S) (finish : S → R) : S → List EntityId → R
  | v, [] => finish v
  | v, e :: l => match look v e with
    | .error answer => answer
    | .ok v' => along look finish v' l

section Rounds

variable {w : World K B} {look : S → EntityId → Except R S} {finish : S → R} {e : EntityId}
  {answer : R} {s s' : Climb S}

/-- A walk is under way: who has been passed and who is still above make the lineage of the entity
at which it began, and with the value that it carries it comes to its answer. -/
structure UnderWay (w : World K B) (look : S → EntityId → Except R S) (finish : S → R)
    (e : EntityId) (answer : R) (s : Climb S) : Prop where
  plan : s.passed ++ w.chain s.next = w.lineage e
  answer : along look finish s.value (w.chain s.next) = answer

variable (acyclic : ∀ x, ¬ Relation.TransGen w.Above x x)
include acyclic

/-- A round keeps a walk under way, and there is less to go. -/
theorem UnderWay.round (h : s.UnderWay w look finish e answer)
    (next : s.round w look finish = .ok s') :
    s'.UnderWay w look finish e answer ∧ (w.chain s'.next).length < (w.chain s.next).length := by
  obtain ⟨plan, goes⟩ := h
  obtain ⟨value, none | x, passed⟩ := s
  · cases next
  · obtain ⟨v, seen, rfl⟩ : ∃ v, look value x = .ok v ∧
        { value := v, next := w.parent? x, passed := passed ++ [x] } = s' := by
      rw [Climb.round] at next
      dsimp only at next
      cases seen : look value x with
      | error r => rw [seen] at next; cases next
      | ok v => rw [seen] at next; exact ⟨v, rfl, Except.ok.inj next⟩
    simp only [World.chain_some acyclic, along, seen] at plan goes ⊢
    refine ⟨⟨?_, goes⟩, Nat.lt_succ_self _⟩
    rw [← plan, List.append_assoc]
    rfl

/-- The round that ends a walk under way has its answer. -/
theorem UnderWay.ended {r : R} (h : s.UnderWay w look finish e answer)
    (ended : s.round w look finish = .error r) : r = answer := by
  obtain ⟨-, rfl⟩ := h
  obtain ⟨value, none | x, passed⟩ := s
  · exact (Except.error.inj ended).symm
  · rw [Climb.round] at ended
    dsimp only at ended
    rw [World.chain_some acyclic, along]
    cases seen : look value x with
    | error r' => rw [seen] at ended; exact (Except.error.inj ended).symm
    | ok v => rw [seen] at ended; cases ended

/-- Whoever has been passed or is come to next is on the lineage, and is there once. -/
theorem UnderWay.nodup (h : s.UnderWay w look finish e answer) :
    (s.passed ++ s.next.toList).Nodup := by
  have way := World.nodup_lineage acyclic e
  rw [← h.plan] at way
  exact way.sublist ((World.toList_sublist_chain w s.next).append_left s.passed)

/-- A walk that is under way ends with its answer. At no time it has come to anybody twice. -/
theorem UnderWay.ends (h : s.UnderWay w look finish e answer) :
    Loop.Ends (Climb.round w look finish) s answer ∧
      ∀ s', Loop.Leads (Climb.round w look finish) s s' → (s'.passed ++ s'.next.toList).Nodup := by
  refine ⟨?_, fun s' leads => ?_⟩
  · obtain ⟨s', r, leads, ended, last⟩ := Loop.exists_end
      (I := UnderWay w look finish e answer) (fun s => (w.chain s.next).length)
      (fun h next => h.round acyclic next) h
    exact ⟨s', leads, last.ended acyclic ended ▸ ended⟩
  · have last := leads.keeps (I := UnderWay w look finish e answer)
      (fun h next => (h.round acyclic next).1) h
    exact last.nodup acyclic

end Rounds

/-! ### What is looked for -/

/-- Looks for an entity. -/
def seek (ancestor : EntityId) : Unit → EntityId → Except Bool Unit :=
  fun _ e => if e = ancestor then .error true else .ok ()

/-- Looks for an actor that is not active. -/
def inspect (w : World K B) : Unit → EntityId → Except Bool Unit :=
  fun _ e => match w.actor? e with
    | some a => if a.state = .active then .ok () else .error false
    | none => .ok ()

/-- Takes the places into a value, as long as there are places. -/
def gather (w : World K B) (take : S → Transform K → S) : S → EntityId → Except S S :=
  fun v e => match w.transform? e with
    | some t => .ok (take v t)
    | none => .error v

/-- Looking for an entity along a list finds it if it is there. -/
theorem along_seek (ancestor : EntityId) (l : List EntityId) :
    along (seek ancestor) (fun _ => false) () l = l.contains ancestor := by
  induction l with
  | nil => rfl
  | cons e l ih =>
    rw [along, seek, List.contains_cons]
    by_cases here : e = ancestor
    · rw [if_pos here, here, beq_self_eq_true, Bool.true_or]
    · rw [if_neg here, beq_false_of_ne (Ne.symm here), Bool.false_or]
      exact ih

/-- Looking for inactive actors along a list finds none if all are active. -/
theorem along_inspect (w : World K B) (l : List EntityId) :
    along (inspect w) (fun _ => true) () l = l.all fun node => match w.actor? node with
      | some a => a.state == .active
      | none => true := by
  induction l with
  | nil => rfl
  | cons e l ih =>
    rw [along, inspect, List.all_cons]
    cases actor : w.actor? e with
    | none => exact ih
    | some a =>
      by_cases on : a.state = .active
      · simpa [on] using ih
      · simp [on]

/-- Only the last one above an entity may be without a place. -/
theorem along_gather {w : World K B} (acyclic : ∀ x, ¬ Relation.TransGen w.Above x x)
    (take : S → Transform K → S) (v : S) (o : Option EntityId) :
    along (gather w take) id v (w.chain o) = ((w.chain o).filterMap w.transform?).foldl take v := by
  induction walk : w.chain o generalizing o v with
  | nil => rfl
  | cons e l ih =>
    cases o with
    | none => cases walk
    | some x =>
      rw [World.chain_some acyclic] at walk
      obtain ⟨rfl, rest⟩ := List.cons.inj walk
      rw [along, gather]
      cases place : w.transform? x with
      | none =>
        have top : w.parent? x = none := by rw [World.parent?, place, Option.bind_none]
        obtain rfl : [] = l := by rw [← rest, top]; rfl
        rw [List.filterMap_cons_none place]
        rfl
      | some t =>
        rw [List.filterMap_cons_some place, List.foldl_cons]
        exact ih (take v t) (w.parent? x) rest

end Climb

/-! ## Recursions -/

namespace World

section Layout

variable [Scalar K]

/-- Finding the rectangle of an entity, if there is an entity, by way of the rectangle of its
parent, and who is come to for it. -/
inductive LaysOut (w : World K B) : Option EntityId → List EntityId → Option (Rect K) → Prop where
  | nobody : LaysOut w none [] none
  | free {e} : w.anchoring? e = none → LaysOut w (some e) [e] none
  | inside {e a path outer} : w.anchoring? e = some a → LaysOut w (w.parent? e) path outer →
      LaysOut w (some e) (e :: path) (some (a.layout (outer.getD w.viewportRect)).2)

variable {w : World K B} {o : Option EntityId}

/-- There is one way at most. -/
theorem LaysOut.unique {path path' : List EntityId} {r r' : Option (Rect K)}
    (h : w.LaysOut o path r) (h' : w.LaysOut o path' r') : path' = path ∧ r' = r := by
  induction h generalizing path' r' with
  | nobody =>
    cases h'
    exact ⟨rfl, rfl⟩
  | free free =>
    cases h' with
    | free => exact ⟨rfl, rfl⟩
    | inside anchored => cases free.symm.trans anchored
  | inside anchored _ ih =>
    cases h' with
    | free free => cases free.symm.trans anchored
    | inside anchored' outer =>
      cases anchored.symm.trans anchored'
      obtain ⟨rfl, rfl⟩ := ih outer
      exact ⟨rfl, rfl⟩

/-- The recursion ends with the rectangle, on the way up. -/
theorem exists_laysOut (acyclic : ∀ x, ¬ Relation.TransGen w.Above x x) (o : Option EntityId) :
    ∃ path, path <+: w.chain o ∧ w.LaysOut o path (o.bind w.rect?) := by
  induction walk : w.chain o generalizing o with
  | nil =>
    cases o with
    | none => exact ⟨[], List.prefix_rfl, .nobody⟩
    | some e => rw [chain_some acyclic] at walk; cases walk
  | cons x l ih =>
    cases o with
    | none => cases walk
    | some e =>
      rw [chain_some acyclic] at walk
      obtain ⟨rfl, rest⟩ := List.cons.inj walk
      rw [Option.bind_some, rect?_eq acyclic]
      cases anchored : w.anchoring? e with
      | none => exact ⟨[e], List.prefix_cons_inj e |>.2 (List.nil_prefix), .free anchored⟩
      | some a =>
        obtain ⟨path, way, outer⟩ := ih (w.parent? e) rest
        exact ⟨e :: path, (List.prefix_cons_inj e).2 way, .inside anchored outer⟩

end Layout

section Matrices

variable [Scalar K]

/-- Asks an entity for its matrix, if there is an entity. -/
def ask (w : World K B) (o : Option EntityId) : Option (Mat4 K) × World K B :=
  match o with
  | some e => w.localToWorld e
  | none => (none, w)

/-- Finding the matrix of an entity, if there is an entity, by way of the matrix of its parent, and
who is come to for it. -/
inductive Resolves : World K B → Option EntityId → List EntityId →
    Option (Mat4 K) × World K B → Prop where
  | nobody {w} : Resolves w none [] (none, w)
  | lost {w e} : w.transform? e = none → Resolves w (some e) [e] (none, w)
  | known {w e t m} : w.transform? e = some t → t.localToWorld = some m →
      Resolves w (some e) [e] (some m, w)
  | composed {w e t path above} : w.transform? e = some t → t.localToWorld = none →
      Resolves (w.applyLayout e) t.parent path above →
      Resolves w (some e) (e :: path)
        (some (composed above.1 (((w.applyLayout e).transform? e).getD t).localMatrix),
          above.2.keepMatrix e
            (composed above.1 (((w.applyLayout e).transform? e).getD t).localMatrix))

variable {w : World K B} {o : Option EntityId}

/-- There is one way at most. -/
theorem Resolves.unique {path path' : List EntityId} {m m' : Option (Mat4 K) × World K B}
    (h : w.Resolves o path m) (h' : w.Resolves o path' m') : path' = path ∧ m' = m := by
  induction h generalizing path' m' with
  | nobody =>
    cases h'
    exact ⟨rfl, rfl⟩
  | lost lost =>
    cases h' with
    | lost => exact ⟨rfl, rfl⟩
    | known place => cases lost.symm.trans place
    | composed place => cases lost.symm.trans place
  | known place known =>
    cases h' with
    | lost lost => cases lost.symm.trans place
    | known place' known' =>
      cases place.symm.trans place'
      cases known.symm.trans known'
      exact ⟨rfl, rfl⟩
    | composed place' unknown =>
      cases place.symm.trans place'
      cases known.symm.trans unknown
  | composed place unknown _ ih =>
    cases h' with
    | lost lost => cases lost.symm.trans place
    | known place' known =>
      cases place.symm.trans place'
      cases known.symm.trans unknown
    | composed place' unknown' above =>
      cases place.symm.trans place'
      obtain ⟨rfl, rfl⟩ := ih above
      exact ⟨rfl, rfl⟩

/-- The recursion ends with the matrix, on the way up. -/
theorem exists_resolves (acyclic : ∀ x, ¬ Relation.TransGen w.Above x x) (o : Option EntityId) :
    ∃ path, path <+: w.chain o ∧ w.Resolves o path (w.ask o) := by
  induction walk : w.chain o generalizing w o with
  | nil =>
    cases o with
    | none => exact ⟨[], List.prefix_rfl, .nobody⟩
    | some e => rw [chain_some acyclic] at walk; cases walk
  | cons x l ih =>
    cases o with
    | none => cases walk
    | some e =>
      rw [chain_some acyclic] at walk
      obtain ⟨rfl, rest⟩ := List.cons.inj walk
      rw [ask]
      cases place : w.transform? e with
      | none =>
        rw [localToWorld_none place]
        exact ⟨[e], (List.prefix_cons_inj e).2 List.nil_prefix, .lost place⟩
      | some t =>
        cases known : t.localToWorld with
        | some m =>
          have kept : w.matrix? e = some m := by rw [matrix?, place]; exact known
          rw [localToWorld_known kept]
          exact ⟨[e], (List.prefix_cons_inj e).2 List.nil_prefix, .known place known⟩
        | none =>
          have links := (settles_applyLayout w e).sameLinks
          have acyclic' : ∀ x, ¬ Relation.TransGen (w.applyLayout e).Above x x := by
            rwa [above_congr links.parent?]
          have up : w.parent? e = t.parent := by rw [parent?, place, Option.bind_some]
          have asked : (w.applyLayout e).askParent e = (w.applyLayout e).ask t.parent := by
            rw [askParent, links.parent?, up]
            rfl
          have rest' : (w.applyLayout e).chain t.parent = l := by
            rw [← rest, up, chain_congr links.size links.parent?]
          obtain ⟨path, way, above⟩ := ih acyclic' t.parent rest'
          rw [localToWorld_laid acyclic place known, asked]
          exact ⟨e :: path, (List.prefix_cons_inj e).2 way, .composed place known above⟩

end Matrices

/-! ## All walks up -/

section Up

variable {w : World K B}

/-- A loop up the tree ends with an answer, and at no time it has come to anybody twice. -/
structure Climbs {S R : Type} (w : World K B) (look : S → EntityId → Except R S) (finish : S → R)
    (start : Climb S) (answer : R) : Prop where
  ends : Loop.Ends (Climb.round w look finish) start answer
  once : ∀ s, Loop.Leads (Climb.round w look finish) start s → (s.passed ++ s.next.toList).Nodup

section Loops

variable {S R : Type} (acyclic : ∀ x, ¬ Relation.TransGen w.Above x x)
  (look : S → EntityId → Except R S) (finish : S → R) (v : S) (e : EntityId)
include acyclic

/-- The loop that begins with an entity ends with what its line of ancestors gives. -/
theorem climbs_here : w.Climbs look finish (.here v e) (Climb.along look finish v (w.lineage e)) :=
  have begun : (Climb.here v e).UnderWay w look finish e _ := ⟨rfl, rfl⟩
  ⟨(begun.ends acyclic).1, (begun.ends acyclic).2⟩

/-- The loop that begins above an entity ends with what those above it give. -/
theorem climbs_above :
    w.Climbs look finish (.above w v e) (Climb.along look finish v (w.ancestors e)) :=
  have begun : (Climb.above w v e).UnderWay w look finish e _ :=
    ⟨(chain_some acyclic e).symm, congrArg _ (ancestors_eq acyclic e).symm⟩
  ⟨(begun.ends acyclic).1, (begun.ends acyclic).2⟩

end Loops

variable [Scalar K]

/-- All walks up from an entity end with the answers that the bounded walks find, and come to nobody
twice. -/
structure WalkedUp (w : World K B) (e : EntityId) : Prop where
  ancestor : ∀ a, w.Climbs (Climb.seek a) (fun _ => false) (.above w () e) (w.isAncestor a e)
  /-- What is no actor is not active, whatever the walk says. -/
  active : ∃ on, w.Climbs (Climb.inspect w) (fun _ => true) (.here () e) on ∧
    w.isActive e = ((w.actor? e).isSome && on)
  rotation : ∀ t, w.transform? e = some t → ∃ q, w.worldRotation? e = some q ∧
    w.Climbs (Climb.gather w fun q above => above.rotation * q) id (.above w t.rotation e) q
  scale : ∀ t, w.transform? e = some t → ∃ s, w.worldScale? e = some s ∧
    w.Climbs (Climb.gather w fun s above => s * above.scale) id (.above w t.scale e) s
  /-- The recursion ends, in one way only. -/
  rect : ∃ path, path.Nodup ∧ ∀ path' r,
    w.LaysOut (some e) path' r ↔ path' = path ∧ r = w.rect? e
  /-- The recursion begins at the parent, and the viewport stands in where it finds nothing. -/
  parentRect : ∃ path outer, (e :: path).Nodup ∧ w.parentRect e = outer.getD w.viewportRect ∧
    ∀ path' r, w.LaysOut (w.parent? e) path' r ↔ path' = path ∧ r = outer
  /-- The recursion changes the world: it lays out whoever it comes to and keeps the matrices. -/
  localToWorld : ∃ path, path.Nodup ∧ ∀ path' m,
    w.Resolves (some e) path' m ↔ path' = path ∧ m = w.localToWorld e

/-- Walks up end, having come to nobody twice. -/
theorem walks_up (acyclic : ∀ x, ¬ Relation.TransGen w.Above x x) (e : EntityId) :
    w.WalkedUp e := by
  have gathered : ∀ {S : Type} (take : S → Transform K → S) (v : S),
      Climb.along (Climb.gather w take) id v (w.ancestors e)
        = ((w.ancestors e).filterMap w.transform?).foldl take v := by
    intro S take v
    rw [ancestors_eq acyclic]
    exact Climb.along_gather acyclic take v (w.parent? e)
  have lineage := nodup_lineage acyclic e
  have parents : (e :: w.chain (w.parent? e)).Nodup := chain_some acyclic e ▸ lineage
  refine ⟨fun a => ?_, ⟨_, climbs_here acyclic _ _ () e, ?_⟩, fun t place => ?_,
    fun t place => ?_, ?_, ?_, ?_⟩
  · rw [isAncestor, ← Climb.along_seek]
    exact climbs_above acyclic _ _ () e
  · rw [Climb.along_inspect]
    rfl
  · rw [worldRotation?, place, Option.map_some]
    exact ⟨_, rfl, gathered _ t.rotation ▸ climbs_above acyclic _ _ t.rotation e⟩
  · rw [worldScale?, place, Option.map_some]
    exact ⟨_, rfl, gathered _ t.scale ▸ climbs_above acyclic _ _ t.scale e⟩
  · obtain ⟨path, way, laid⟩ := exists_laysOut acyclic (some e)
    refine ⟨path, lineage.sublist way.sublist, fun path' r => ⟨laid.unique, ?_⟩⟩
    rintro ⟨rfl, rfl⟩
    exact laid
  · obtain ⟨path, way, laid⟩ := exists_laysOut acyclic (w.parent? e)
    refine ⟨path, _, parents.sublist (way.sublist.cons_cons e), rfl, fun path' r =>
      ⟨laid.unique, ?_⟩⟩
    rintro ⟨rfl, rfl⟩
    exact laid
  · obtain ⟨path, way, found⟩ := exists_resolves acyclic (some e)
    refine ⟨path, lineage.sublist way.sublist, fun path' m => ⟨found.unique, ?_⟩⟩
    rintro ⟨rfl, rfl⟩
    exact found

end Up

end World

/-- At every instant of every scene, and for every entity, the walks down the tree that forget
matrices and flag actors end, having come to the entity and everything under it, to each once, and
having changed nothing else; and all walks up the tree end, having come to nobody twice. The walks
have no bound of their own: each ends where the links end. -/
theorem tree_walks_reach_and_end [Scalar K] [Behavior K B] {w : World K B} (h : AtInstant w)
    (e : EntityId) : w.WalkedDown e (w.walk e) ∧ w.WalkedUp e :=
  ⟨World.walks_down h.traceable h.fostered h.apart e, World.walks_up h.traceable.acyclic e⟩

/-- Two branches under an actor, from the end of one of which an actor is dropped without the tree
being brought up to date. -/
def branches : Program Float32 Empty Unit := do
  let root ← Program.edit (.spawn (ActorSpec.named "root"))
  let left ← Program.edit (.spawn { ActorSpec.named "left" with parent := some root })
  let _ ← Program.edit (.spawn { ActorSpec.named "leaf" with parent := some left })
  let right ← Program.edit (.spawn { ActorSpec.named "right" with parent := some root })
  let lost ← Program.edit (.spawn { ActorSpec.named "lost" with parent := some right })
  let _ ← Program.edit (.despawn lost)
  return ()

/-- The walk from the root goes down the right branch first, and comes to the actor that has gone,
too. From the leaf the way up leads to the root. -/
theorem tree_walks_reach_and_end_branches : ∃ w : World Float32 Empty, AtInstant w ∧
    (w.entity? ⟨4⟩).isNone ∧ w.WalkedDown ⟨0⟩ [⟨0⟩, ⟨3⟩, ⟨4⟩, ⟨1⟩, ⟨2⟩] ∧
      w.lineage ⟨2⟩ = [⟨2⟩, ⟨1⟩, ⟨0⟩] ∧ w.WalkedUp ⟨2⟩ := by
  have run : branches.passes .bare fun _ w => (w.entity? ⟨4⟩).isNone &&
      decide (w.walk ⟨0⟩ = [⟨0⟩, ⟨3⟩, ⟨4⟩, ⟨1⟩, ⟨2⟩]) &&
      decide (w.lineage ⟨2⟩ = [⟨2⟩, ⟨1⟩, ⟨0⟩]) := by decide +kernel
  obtain ⟨_, w, hrun, checked⟩ := Program.exists_of_passes run
  simp only [Bool.and_eq_true, decide_eq_true_eq] at checked
  obtain ⟨⟨gone, order⟩, way⟩ := checked
  have h : AtInstant w := (Reachable.step (.empty rfl rfl rfl rfl)
    (.program (Scope.fit_everything _) hrun)).moment.instant
  exact ⟨w, h, gone, order ▸ (tree_walks_reach_and_end h ⟨0⟩).1, way,
    (tree_walks_reach_and_end h ⟨2⟩).2⟩

end SheepScene
