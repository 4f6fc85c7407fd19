import SheepScene.Proofs.Scene.Relinking
import SheepScene.Proofs.Scene.Tidy

/-!
# Scene graphs are well formed

In every scene that comes about from an empty one the links between parents and children fit
together, lead to entities that exist and form no cycle, and the list of actors names the actors
there are in the order of their creation (`scene_graph_wellFormed`). Neither rejected requests nor
the order in which parents and children are destroyed and swept make a difference.
-/

set_option autoImplicit false

namespace SheepScene

variable {K B : Type}

namespace World

/-- The actors there are, in the order of their creation. -/
def population (w : World K B) : List EntityId :=
  ((List.range w.entities.size).map EntityId.mk).filter fun e => (w.actor? e).isSome

/-- A scene whose tree is linked well and that lists its actors. -/
structure WellFormed (w : World K B) : Prop where
  links : w.WellLinked
  roster : w.actors = w.population

/-- The population is all actors that are there. -/
theorem mem_population_iff {w : World K B} {e : EntityId} :
    e ∈ w.population ↔ (w.actor? e).isSome := by
  unfold population
  rw [List.mem_filter, List.mem_map]
  refine ⟨fun h => h.2, fun h => ⟨⟨e.index, ?_, rfl⟩, h⟩⟩
  obtain ⟨a, ha⟩ := Option.isSome_iff_exists.1 h
  obtain ⟨x, hx, -⟩ := Option.bind_eq_some_iff.1 ha
  exact List.mem_range.2 (index_lt_of_entity? hx)

/-- Later actors have higher numbers. -/
theorem pairwise_population (w : World K B) :
    w.population.Pairwise fun a b => a.index < b.index := by
  unfold population
  refine List.Pairwise.filter _ ?_
  rw [List.pairwise_map]
  exact List.pairwise_lt_range

/-- The population depends only on which entities are actors. -/
theorem population_congr {w w' : World K B} (size : w'.entities.size = w.entities.size)
    (actors : ∀ e, (w'.actor? e).isSome = (w.actor? e).isSome) : w'.population = w.population := by
  unfold population
  rw [size, funext actors]

namespace WellFormed

variable {w w' : World K B} (h : w.WellFormed)
include h

/-- Changing places keeps the actors. -/
theorem onlyPlaces (agrees : OnlyPlaces w w') (links : w'.WellLinked) : w'.WellFormed := by
  refine ⟨links, ?_⟩
  have roster : w'.roster = w.roster := by rw [agrees.rest]
  rw [population_congr agrees.size fun e => by rw [agrees.actor? e], ← h.roster]
  unfold actors
  rw [roster]

/-- A scene stays well formed as long as links and actors are kept. -/
theorem sameLinks (agrees : SameLinks w w') : w'.WellFormed :=
  h.onlyPlaces agrees.onlyPlaces (h.links.congr agrees.parent? agrees.children)

/-- Being well formed is a property of places, actors and list. -/
theorem congr (size : w'.entities.size = w.entities.size)
    (transforms : ∀ e, w'.transform? e = w.transform? e)
    (actors : ∀ e, (w'.actor? e).isSome = (w.actor? e).isSome) (roster : w'.roster = w.roster) :
    w'.WellFormed := by
  refine ⟨h.links.congr (fun e => ?_) (fun e => ?_), ?_⟩
  · unfold parent?
    rw [transforms]
  · unfold children
    rw [transforms]
  · rw [population_congr size actors, ← h.roster, World.actors, World.actors, roster]

/-- A scene stays well formed as long as it is the same. -/
theorem same (same : SameScene w w') : w'.WellFormed :=
  h.congr same.size same.transform? same.isSome_actor? same.roster

/-! ## Creating, spawning, removing -/

/-- An entity that is created is listed if it is an actor. -/
theorem create {entity : Entity K B}
    (free : ∀ t, entity.transform = some t → t.parent = none ∧ t.children = [])
    (entities : w'.entities = (w.create entity).2.entities)
    (roster : w'.actors = w.actors ++ if entity.actor.isSome then [⟨w.entities.size⟩] else []) :
    w'.WellFormed := by
  have hentity : ∀ e, w'.entity? e
      = if e.index = w.entities.size then some entity else w.entity? e := by
    intro e
    rw [← entity?_create]
    unfold entity?
    rw [entities]
  have hlinks := h.links.create free
  refine ⟨hlinks.congr (fun e => ?_) (fun e => ?_), ?_⟩
  · unfold parent? transform? entity?
    rw [entities]
  · rw [children_eq, children_eq]
    unfold transform? entity?
    rw [entities]
  · have hsize : w'.entities.size = w.entities.size + 1 := by
      rw [entities]
      exact Array.size_push _
    have old : ((List.range w.entities.size).map EntityId.mk).filter
        (fun e => (w'.actor? e).isSome) = w.population := by
      refine List.filter_congr fun e he => ?_
      obtain ⟨i, hi, rfl⟩ := List.mem_map.1 he
      rw [actor?, hentity, if_neg (Nat.ne_of_lt (List.mem_range.1 hi))]
      rfl
    have new : (w'.actor? ⟨w.entities.size⟩).isSome = entity.actor.isSome := by
      rw [actor?, hentity, if_pos rfl, Option.bind_some]
    have extended : w'.population
        = w.population ++ if entity.actor.isSome then [⟨w.entities.size⟩] else [] := by
      rw [population, hsize, List.range_succ, List.map_append, List.filter_append, old,
        List.map_singleton, List.filter_singleton, new, cond_eq_ite]
    rw [roster, h.roster, extended]

/-- Reparenting keeps a scene well formed. -/
theorem setParent (e : EntityId) (parent : Option EntityId) :
    (w.setParent e parent).2.WellFormed :=
  h.onlyPlaces (onlyPlaces_setParent w e parent) (h.links.setParent e parent)

/-- Spawning an actor keeps a scene well formed. -/
theorem spawn (spec : ActorSpec K) : (w.spawn spec).2.WellFormed := by
  unfold World.spawn
  dsimp only
  have created : ∀ {entity : Entity K B}, entity.actor.isSome →
      (∀ t, entity.transform = some t → t.parent = none ∧ t.children = []) →
      ({ (w.create entity).2 with
        roster := some ((w.create entity).2.actors ++ [(w.create entity).1]) } :
          World K B).WellFormed := by
    intro entity hactor free
    refine h.create free rfl ?_
    rw [if_pos hactor]
    rfl
  have free : ∀ t, (some (Transform.ofParts spec.position spec.rotation spec.scale)) = some t →
      t.parent = none ∧ t.children = [] := by
    intro t ht
    cases ht
    exact ⟨rfl, rfl⟩
  split
  · refine WellFormed.setParent ?_ _ _
    exact created rfl free
  · exact created rfl free

/-- Reclaiming an entity keeps a scene well formed. -/
theorem reclaim (e : EntityId) : (w.reclaim e).WellFormed := by
  have detached := onlyPlaces_detach w e
  have hroster : (w.reclaim e).actors = w.actors.filter (· != e) := by
    have cut : (w.detach e).roster = w.roster := by rw [detached.rest]
    unfold World.reclaim actors
    dsimp only
    rw [despawn_eq]
    dsimp only
    rw [cut]
    cases w.roster <;> rfl
  have hsize : (w.reclaim e).entities.size = w.entities.size :=
    (size_despawn _ e).trans detached.size
  have hactor : ∀ x, ((w.reclaim e).actor? x).isSome = (x != e && (w.actor? x).isSome) := by
    intro x
    rw [actor?, entity?_reclaim]
    by_cases hx : x = e
    · rw [if_pos hx]
      simp [hx]
    · rw [if_neg hx]
      change ((w.detach e).actor? x).isSome = _
      simp [detached.actor? x, hx]
  refine ⟨h.links.reclaim e, ?_⟩
  rw [hroster, h.roster, population, population, hsize, List.filter_filter]
  exact List.filter_congr fun x _ => (hactor x).symm

/-- Changing an anchoring keeps a scene well formed. -/
theorem changeAnchoring (e : EntityId) (change : AnchoringChange K) :
    (w.changeAnchoring e change).WellFormed := by
  unfold World.changeAnchoring
  split
  · refine WellFormed.sameLinks ?_ (sameLinks_invalidate _ e)
    refine h.congr Array.size_modify (fun x => ?_) (fun x => ?_) rfl
    · rw [transform?, entity?_modifyEntity]
      split
      · cases hx : w.entity? x <;> simp [transform?, hx]
      · rfl
    · rw [actor?, entity?_modifyEntity]
      split
      · cases hx : w.entity? x <;> simp [actor?, hx]
      · rfl
  · exact h.sameLinks (AgreesOn.record w _)

/-- Changing the viewport keeps a scene well formed. -/
theorem setViewport (viewport : Viewport) : (w.setViewport viewport).WellFormed := by
  have resized : ({ w with viewport := some viewport } : World K B).WellFormed :=
    h.congr rfl (fun _ => rfl) (fun _ => rfl) rfl
  exact resized.sameLinks (AgreesOn.foldl sameLinks_invalidate _)

end WellFormed

section Edits

variable [Scalar K] [Behavior K B]

/-- Every tidy edit keeps a scene well formed. -/
theorem WellFormed.apply {w : World K B} (h : w.WellFormed) {x : Edit K B} (allowed : x.Tidy) :
    (w.apply x).2.WellFormed := by
  cases x with
  | spawn spec => exact h.spawn spec
  | spawnTransform position rotation scale =>
    refine h.create (fun t ht => ?_) rfl (List.append_nil _).symm
    cases ht
    exact ⟨rfl, rfl⟩
  | spawnBare => exact h.create (fun t ht => by cases ht) rfl (List.append_nil _).symm
  | despawn e => exact absurd allowed id
  | place e placement => exact h.sameLinks (sameLinks_place w e placement)
  | placeInWorld e placement => exact h.sameLinks (sameLinks_placeInWorld w e placement)
  | worldPosition e => exact h.sameLinks (settles_worldPosition w e).sameLinks
  | localToWorld e => exact h.sameLinks (settles_localToWorld w e).sameLinks
  | worldToLocal e => exact h.sameLinks (settles_worldToLocal w e).sameLinks
  | localToWorldPoint e v => exact h.sameLinks (settles_localToWorldPoint w e v).sameLinks
  | worldToLocalPoint e v => exact h.sameLinks (settles_worldToLocalPoint w e v).sameLinks
  | setParent e parent => exact h.setParent e parent
  | removeChild parent e =>
    change (w.removeChild parent e).WellFormed
    unfold removeChild
    split
    · exact h.setParent e none
    · exact h
  | translate e offset space => exact h.sameLinks (sameLinks_translate w e offset space)
  | rotate e rotation space => exact h.sameLinks (sameLinks_rotate w e rotation space)
  | rotateAround e point rotation =>
    exact h.sameLinks (sameLinks_rotateAround w e point rotation)
  | invalidate e => exact h.sameLinks (sameLinks_invalidate w e)
  | changeAnchoring e change => exact h.changeAnchoring e change
  | worldRect e => exact h.sameLinks (settles_worldRect w e).sameLinks
  | rectContains e point => exact h.sameLinks (settles_rectContains w e point).sameLinks
  | setViewport viewport => exact h.setViewport viewport
  | snapshot => exact h.sameLinks (settles_snapshot w).sameLinks
  | _ =>
    refine h.same (SameScene.apply w ?_)
    trivial

/-- Tidy scenes stay well formed in all that they do. -/
theorem tidyInvariant_wellFormed : TidyInvariant (WellFormed (K := K) (B := B)) where
  apply _ allowed h := h.apply allowed
  reclaim e h := h.reclaim e
  same same h := h.same same
  scheduler h := h.congr rfl (fun _ => rfl) (fun _ => rfl) rfl

omit [Scalar K] [Behavior K B] in
/-- An empty scene is well formed. -/
theorem wellFormed_empty {w : World K B} (entities : w.entities = #[]) (actors : w.actors = []) :
    w.WellFormed := by
  have hnone : ∀ e, w.entity? e = none := by
    intro e
    unfold entity?
    rw [entities]
    rfl
  have hparent : ∀ e, w.parent? e = none := by
    intro e
    unfold parent? transform?
    rw [hnone]
    rfl
  have hchildren : ∀ e, w.children e = [] := by
    intro e
    unfold children transform?
    rw [hnone]
    rfl
  refine ⟨⟨fun e parent => ?_, fun e => ?_, fun e hcycle => ?_⟩, ?_⟩
  · rw [hparent, hchildren]
    simp
  · rw [hchildren]
    exact List.nodup_nil
  · obtain ⟨above, hup, -⟩ := Relation.TransGen.head'_iff.1 hcycle
    rw [Above, hparent] at hup
    cases hup
  · rw [actors, population, entities]
    rfl

end Edits

end World

/-- In every scene that comes about from an empty one, a parent link and an occurrence among the
children come together, an entity occurs once among the children of its parent, links lead to
entities that exist, no entity is above itself, and the list of actors names every actor once, in
the order of creation, and nothing else. -/
theorem scene_graph_wellFormed [Scalar K] [Behavior K B] (behaved : TidyBehavior K B)
    {w : World K B} (h : Reachable (tidy K B) w) :
    (∀ e parent, (w.parent? e = some parent ↔ e ∈ w.children parent) ∧
      (e ∈ w.children parent → (w.children parent).count e = 1 ∧
        (w.entity? e).isSome ∧ (w.entity? parent).isSome)) ∧
      (∀ e, ¬ Relation.TransGen w.Above e e) ∧
      (∀ e, e ∈ w.actors ↔ (w.actor? e).isSome) ∧
      w.actors.Pairwise fun a b => a.index < b.index := by
  have wellFormed := World.tidyInvariant_wellFormed.reachable behaved
    (fun w entities actors => World.wellFormed_empty entities actors) h
  have links := wellFormed.links
  have exists_of_transform? : ∀ e, (w.transform? e).isSome → (w.entity? e).isSome := by
    intro e he
    obtain ⟨t, ht⟩ := Option.isSome_iff_exists.1 he
    obtain ⟨x, hx, -⟩ := Option.bind_eq_some_iff.1 ht
    rw [hx, Option.isSome_some]
  refine ⟨fun e parent => ⟨links.linked e parent, fun he => ⟨?_, ?_, ?_⟩⟩, links.acyclic, ?_, ?_⟩
  · exact List.count_eq_one_of_mem (links.nodup parent) he
  · exact exists_of_transform? e (World.transform?_of_above ((links.linked e parent).2 he))
  · exact exists_of_transform? parent (World.transform?_of_mem_children he)
  · rw [wellFormed.roster]
    exact fun e => World.mem_population_iff
  · rw [wellFormed.roster]
    exact w.pairwise_population

/-- Three actors one under the other. The first is refused as a child of the last; the last moves
up under the first, and the one in between is destroyed and swept. -/
def graft : Program Float32 Empty Bool := do
  let a ← Program.edit (.spawn (.named "a"))
  let b ← Program.edit (.spawn { ActorSpec.named "b" with parent := some a })
  let c ← Program.edit (.spawn { ActorSpec.named "c" with parent := some b })
  let accepted ← Program.edit (.setParent a (some c))
  let _ ← Program.edit (.setParent c (some a))
  let () ← Program.edit (.destroy b)
  let () ← Program.request .sweep
  return accepted

/-- After the graft there is a tree of two actors. -/
theorem scene_graph_wellFormed_graft :
    TidyBehavior Float32 Empty ∧ ∃ w : World Float32 Empty, Reachable (tidy Float32 Empty) w ∧
      (w.actors = [⟨0⟩, ⟨2⟩] ∧ w.parent? ⟨2⟩ = some ⟨0⟩) ∧
      (∀ e parent, (w.parent? e = some parent ↔ e ∈ w.children parent) ∧
        (e ∈ w.children parent → (w.children parent).count e = 1 ∧
          (w.entity? e).isSome ∧ (w.entity? parent).isSome)) ∧
      (∀ e, ¬ Relation.TransGen w.Above e e) ∧
      (∀ e, e ∈ w.actors ↔ (w.actor? e).isSome) ∧
      w.actors.Pairwise fun a b => a.index < b.index := by
  have behaved : TidyBehavior Float32 Empty := ⟨fun b => b.elim, fun _ => trivial⟩
  have run : graft.passes .bare fun accepted w => !accepted &&
      decide (w.actors = [⟨0⟩, ⟨2⟩]) && decide (w.parent? ⟨2⟩ = some ⟨0⟩) := by decide +kernel
  have fit : tidy Float32 Empty Bool graft := by
    refine Program.only_bind (Program.only_edit trivial) fun a => ?_
    refine Program.only_bind (Program.only_edit trivial) fun b => ?_
    refine Program.only_bind (Program.only_edit trivial) fun c => ?_
    refine Program.only_bind (Program.only_edit trivial) fun accepted => ?_
    refine Program.only_bind (Program.only_edit trivial) fun _ => ?_
    refine Program.only_bind (Program.only_edit trivial) fun _ => ?_
    exact Program.only_bind (Program.only_request trivial) fun _ => Program.only_pure _
  obtain ⟨accepted, w, hrun, checked⟩ := Program.exists_of_passes run
  simp only [Bool.and_eq_true, decide_eq_true_eq] at checked
  have h : Reachable (tidy Float32 Empty) w := .step (.empty rfl rfl rfl rfl) (.program fit hrun)
  exact ⟨behaved, w, h, ⟨checked.1.2, checked.2⟩, scene_graph_wellFormed behaved h⟩

end SheepScene
