import SheepScene.Proofs.Scene.Invalidation

/-!
# Queries answer what is composed

In every scene that comes about from an empty one the matrices that are kept are up to date, on
every entity and after every change. Therefore all queries answer what follows from the
composition of the matrices above an entity, which looks at places, layouts and links and at
nothing that is kept (`queries_answer_compositions`).
-/

set_option autoImplicit false

namespace SheepScene

variable {K B : Type} [Scalar K]

namespace World

/-! ## Scenes are coherent -/

section Edits

variable [Behavior K B]

/-- A tidy edit keeps matrices up to date. -/
theorem Coherent.apply {w : World K B} (h : w.Coherent) {x : Edit K B} (allowed : x.Tidy) :
    (w.apply x).2.Coherent := by
  cases x with
  | spawn spec => exact h.spawn spec
  | spawnTransform position rotation scale =>
    refine h.create (fun t ht => ?_) fun t ht => ?_
    · cases ht
      exact ⟨rfl, rfl⟩
    · cases ht
      exact ⟨rfl, rfl⟩
  | spawnBare => exact h.create (fun t ht => by cases ht) fun t ht => by cases ht
  | despawn e => exact absurd allowed id
  | place e placement => exact h.place e placement
  | placeInWorld e placement => exact h.placeInWorld e placement
  | worldPosition e => exact h.worldPosition e
  | localToWorld e => exact h.localToWorld e
  | worldToLocal e => exact h.worldToLocal e
  | localToWorldPoint e v => exact h.localToWorldPoint e v
  | worldToLocalPoint e v => exact h.worldToLocalPoint e v
  | setParent e parent => exact h.setParent e parent
  | removeChild parent e => exact h.removeChild parent e
  | translate e offset space => exact h.translate e offset space
  | rotate e rotation space => exact h.rotate e rotation space
  | rotateAround e point rotation => exact h.rotateAround e point rotation
  | invalidate e => exact h.invalidate e
  | changeAnchoring e change => exact h.changeAnchoring e change
  | worldRect e => exact h.worldRect e
  | rectContains e point => exact h.worldRect e
  | setViewport viewport => exact h.setViewport viewport
  | snapshot => exact h.snapshot
  | _ =>
    refine h.same (SameScene.apply w ?_)
    trivial

/-- Tidy scenes keep matrices up to date in all that they do. -/
theorem tidyInvariant_coherent : TidyInvariant (Coherent (K := K) (B := B)) where
  apply _ allowed h := h.apply allowed
  reclaim e h := h.reclaim e
  same same h := h.same same
  scheduler h := h.congr rfl (fun _ => rfl) (fun _ => rfl) rfl

omit [Behavior K B] in
/-- In an empty scene there are no matrices to keep up to date. -/
theorem coherent_empty {w : World K B} (entities : w.entities = #[]) (actors : w.actors = []) :
    w.Coherent := by
  refine ⟨(wellFormed_empty entities actors).links, fun e t ht => ?_⟩
  have hlt := index_lt_of_transform? (Option.isSome_iff_exists.2 ⟨t, ht⟩)
  rw [entities] at hlt
  exact absurd hlt (Nat.not_lt_zero _)

end Edits

/-! ## Answers of coherent scenes -/

/-- The composition `m` for an entity, if it has a place, and all that follows from it: the answers
of queries, and the matrices that may be kept. -/
structure AnswersFrom (w : World K B) (e : EntityId) (m : Option (Mat4 K)) : Prop where
  composes : ∀ c, m = some c ↔ w.Composes e c
  placed : m.isSome = (w.transform? e).isSome
  localToWorld : (w.localToWorld e).1 = m
  worldToLocal : (w.worldToLocal e).1 = m.map Mat4.inverseOrIdentity
  worldPosition : (w.worldPosition e).1 = m.map Mat4.origin
  localToWorldPoint : ∀ v, (w.localToWorldPoint e v).1 = m.map fun m => m.transformPoint v
  worldToLocalPoint : ∀ v, (w.worldToLocalPoint e v).1
    = m.map fun m => m.inverseOrIdentity.transformPoint v
  worldRect : (w.worldRect e).1 = (w.rect? e).bind fun r => m.map fun m =>
    .ofCorners (m.transformPoint (r.low.lift 0)).flat (m.transformPoint (r.high.lift 0)).flat
  kept : ∀ t, w.transform? e = some t →
    (t.localToWorld.isSome → t.localToWorld = m) ∧
    (t.worldToLocal.isSome → t.worldToLocal = m.map Mat4.inverseOrIdentity)

namespace Coherent

variable {w : World K B} (h : w.Coherent)
include h

/-- The answer about the inverse is the inverse of the answer about the matrix. -/
theorem worldToLocal_eq (e : EntityId) :
    (w.worldToLocal e).1 = (w.localToWorld e).1.map Mat4.inverseOrIdentity := by
  ext n
  rw [h.worldToLocal_eq_some_iff, Option.map_eq_some_iff]
  exact exists_congr fun m => and_congr h.localToWorld_eq_some_iff.symm eq_comm

/-- Asking for something else first makes no difference. -/
theorem localToWorld_settles {w' : World K B} (h' : w'.Coherent) (settles : Settles w w')
    (e : EntityId) : (w'.localToWorld e).1 = (w.localToWorld e).1 := by
  ext m
  rw [h.localToWorld_eq_some_iff, h'.localToWorld_eq_some_iff]
  exact ⟨fun hm => hm.settles settles.symm, fun hm => hm.settles settles⟩

/-- The rectangle in the world is the one around the corners as the composition moves them. -/
theorem worldRect_eq (e : EntityId) : (w.worldRect e).1 = (w.rect? e).bind fun r =>
    (w.localToWorld e).1.map fun m =>
      .ofCorners (m.transformPoint (r.low.lift 0)).flat
        (m.transformPoint (r.high.lift 0)).flat := by
  have again := h.localToWorld_settles (h.localToWorld e) (settles_localToWorld w e) e
  unfold World.worldRect World.localToWorldPoint
  cases w.rect? e with
  | none => rfl
  | some r =>
    rcases hq : w.localToWorld e with ⟨m, w'⟩
    rw [hq] at again
    rcases hq' : w'.localToWorld e with ⟨m', w''⟩
    rw [hq'] at again
    cases again
    cases m <;> simp [hq']

/-- All queries are answered from the world matrix. -/
theorem answersFrom (e : EntityId) : w.AnswersFrom e (w.localToWorld e).1 where
  composes c := h.localToWorld_eq_some_iff
  placed := by
    cases he : w.transform? e with
    | none =>
      rw [localToWorld_none he]
      rfl
    | some t =>
      obtain ⟨m, hm, -⟩ := h.answers_localToWorld (Option.isSome_iff_exists.2 ⟨t, he⟩)
      rw [hm]
      rfl
  localToWorld := rfl
  worldToLocal := h.worldToLocal_eq e
  worldPosition := rfl
  localToWorldPoint v := rfl
  worldToLocalPoint v := by
    change (w.worldToLocal e).1.map _ = _
    rw [h.worldToLocal_eq, Option.map_map]
    rfl
  worldRect := h.worldRect_eq e
  kept t ht := by
    have knows := h.knows e t ht
    refine ⟨fun hkept => ?_, fun hkept => ?_⟩
    · obtain ⟨c, hc⟩ := Option.isSome_iff_exists.1 hkept
      rw [hc, h.localToWorld_eq_some_iff.2 (knows.matrix c hc)]
    · obtain ⟨n, hn⟩ := Option.isSome_iff_exists.1 hkept
      obtain ⟨c, hc, rfl⟩ := knows.inverse n hn
      rw [hn, h.localToWorld_eq_some_iff.2 (knows.matrix c hc), Option.map_some]

end Coherent

end World

variable [Behavior K B]

/-- In every scene that comes about from an empty one, an entity with a place has one composition,
and every query answers what follows from it; an entity without a place has none, and queries
answer nothing. A matrix that is kept is the composition, and an inverse that is kept its inverse,
with the identity in place of a missing one. -/
theorem queries_answer_compositions (behaved : TidyBehavior K B) {w : World K B}
    (h : Reachable (tidy K B) w) (e : EntityId) : ∃ m, w.AnswersFrom e m := by
  have coherent : w.Coherent := World.tidyInvariant_coherent.reachable behaved
    (fun w entities actors => World.coherent_empty entities actors) h
  exact ⟨_, coherent.answersFrom e⟩

/-- A rectangle over the whole viewport with an actor in it, whose matrices are known when the
viewport gets its size, and asked for again. -/
def resize : Program Float32 Empty Unit := do
  let panel ← Program.edit (.spawn { ActorSpec.named "panel" with anchoring := some .stretched })
  let label ← Program.edit (.spawn { ActorSpec.named "label" with parent := some panel })
  let _ ← Program.edit (.worldToLocal label)
  let () ← Program.edit (.setViewport ⟨800, 600⟩)
  let _ ← Program.edit (.worldToLocal label)
  return ()

/-- After the viewport got its size both matrices of the actor in it are kept, and up to date. -/
theorem queries_answer_compositions_resize :
    TidyBehavior Float32 Empty ∧ ∃ w : World Float32 Empty, Reachable (tidy Float32 Empty) w ∧
      (w.parent? ⟨1⟩ = some ⟨0⟩ ∧ ∃ t, w.transform? ⟨1⟩ = some t ∧
        t.localToWorld.isSome ∧ t.worldToLocal.isSome) ∧
      ∃ m, w.AnswersFrom ⟨1⟩ m := by
  have behaved : TidyBehavior Float32 Empty := ⟨fun b => b.elim, fun _ => trivial⟩
  have run : resize.passes .bare fun _ w => decide (w.parent? ⟨1⟩ = some ⟨0⟩) &&
      ((w.transform? ⟨1⟩).bind (·.localToWorld)).isSome &&
      ((w.transform? ⟨1⟩).bind (·.worldToLocal)).isSome := by decide +kernel
  have fit : tidy Float32 Empty Unit resize := by
    refine Program.only_bind (Program.only_edit trivial) fun panel => ?_
    refine Program.only_bind (Program.only_edit trivial) fun label => ?_
    refine Program.only_bind (Program.only_edit trivial) fun _ => ?_
    refine Program.only_bind (Program.only_edit trivial) fun _ => ?_
    exact Program.only_bind (Program.only_edit trivial) fun _ => Program.only_pure _
  obtain ⟨_, w, hrun, checked⟩ := Program.exists_of_passes run
  simp only [Bool.and_eq_true, decide_eq_true_eq] at checked
  have h : Reachable (tidy Float32 Empty) w := .step (.empty rfl rfl rfl rfl) (.program fit hrun)
  obtain ⟨⟨hparent, hmatrix⟩, hinverse⟩ := checked
  refine ⟨behaved, w, h, ⟨hparent, ?_⟩, queries_answer_compositions behaved h ⟨1⟩⟩
  cases ht : w.transform? ⟨1⟩ with
  | none =>
    rw [ht] at hmatrix
    cases hmatrix
  | some t =>
    rw [ht] at hmatrix hinverse
    exact ⟨t, rfl, hmatrix, hinverse⟩

end SheepScene
