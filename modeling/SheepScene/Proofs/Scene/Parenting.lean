import SheepScene.Proofs.Scene.Moments

/-!
# Putting entities under parents

An entity can be put under a parent if both have a place and the parent is not below it
(`World.Unparentable`), whatever the shape of the tree and however long the way up from the parent
is. If it cannot, nothing happens but a warning. If it can, it leaves the children of the parent
that it had, comes last among the children of the new one, and all other links and all places in a
parent's space are as they were (`World.Reparented`), also where the two parents are the same.
-/

set_option autoImplicit false

namespace SheepScene

variable {K B : Type}

/-! ## Changes of links and matrices -/

/-- An entity without the links and matrices of its place. -/
def Entity.unlinked (x : Entity K B) : Option (Actor K) × Option (Anchoring K) ×
    Option (Array (Slot K B)) × Option (Vec3 K × Quat K × Vec3 K) :=
  (x.actor, x.anchoring, x.slots, x.transform.map fun t => (t.position, t.rotation, t.scale))

/-- Worlds that differ in links and matrices only. -/
abbrev OnlyLinks (w w' : World K B) : Prop :=
  AgreesOn Entity.unlinked w w'

namespace World

/-- Changing a place but not its position, rotation or scale changes only links and matrices. -/
theorem onlyLinks_modifyTransform (w : World K B) (e : EntityId) {f : Transform K → Transform K}
    (same : ∀ t,
      ((f t).position, (f t).rotation, (f t).scale) = (t.position, t.rotation, t.scale)) :
    OnlyLinks w (w.modifyTransform e f) :=
  AgreesOn.modifyTransform fun x t _ ht => by
    simp only [Entity.unlinked, ht, Option.map_some, same t]

/-- Telling a subtree that it is stale changes only links and matrices. -/
theorem onlyLinks_invalidate (w : World K B) (e : EntityId) : OnlyLinks w (w.invalidate e) :=
  AgreesOn.foldl (fun w e => onlyLinks_modifyTransform w e (f := Transform.invalidated)
    fun _ => rfl) w

/-- Leaving a parent changes only links and matrices. -/
theorem onlyLinks_leave (w : World K B) (e : EntityId) : OnlyLinks w (w.leave e) := by
  unfold leave
  split
  · exact onlyLinks_modifyTransform w _ fun _ => rfl
  · exact AgreesOn.refl w

/-- Linking up to a parent changes only links and matrices. -/
theorem onlyLinks_linkUp (w : World K B) (e : EntityId) (parent : Option EntityId) :
    OnlyLinks w (w.linkUp e parent) :=
  onlyLinks_modifyTransform w e fun _ => rfl

/-- Joining the children of a parent changes only links and matrices. -/
theorem onlyLinks_join (w : World K B) (e : EntityId) (parent : Option EntityId) :
    OnlyLinks w (w.join e parent) := by
  unfold join
  split
  · exact onlyLinks_modifyTransform w _ fun _ => rfl
  · exact AgreesOn.refl w

/-- Reparenting changes only links and matrices. -/
theorem onlyLinks_setParent (w : World K B) (e : EntityId) (parent : Option EntityId) :
    OnlyLinks w (w.setParent e parent).2 := by
  unfold setParent
  split
  · exact AgreesOn.record w _
  · exact (((onlyLinks_leave w e).trans (onlyLinks_linkUp _ e parent)).trans
      (onlyLinks_join _ e parent)).trans (onlyLinks_invalidate _ e)

/-! ## Which parents are refused -/

/-- An entity cannot be put under a parent: it has no place, or the parent has none, or the parent
is the entity itself or below it. -/
def Unparentable (w : World K B) (e : EntityId) (parent : Option EntityId) : Prop :=
  w.transform? e = none ∨ ∃ p, parent = some p ∧ (w.transform? p = none ∨ w.Below p e)

variable {w : World K B} {e : EntityId} {parent : Option EntityId}

/-- An entity can be put under a parent if both have a place, and the parent is not below the
entity. -/
theorem not_unparentable_iff : ¬ w.Unparentable e parent ↔ (w.transform? e).isSome ∧
    ∀ p, parent = some p → (w.transform? p).isSome ∧ ¬ w.Below p e := by
  simp only [Unparentable, not_or, not_exists, not_and, Option.isSome_iff_ne_none, ne_eq]

/-- Where links form no cycle, the walk up from a parent finds out whether it is below the entity
that is to be put under it. -/
theorem refused_iff (acyclic : ∀ x, ¬ Relation.TransGen w.Above x x) :
    (w.setParent e parent).1 = false ↔ w.Unparentable e parent := by
  have walk : ∀ p, (p ≠ e ∧ w.isAncestor e p = false) ↔ ¬ w.Below p e := by
    intro p
    rw [Below, Relation.reflTransGen_iff_eq_or_transGen, not_or, ← isAncestor_iff acyclic,
      Bool.not_eq_true, ne_comm]
  have accepted : w.parentRefusal e parent = none ↔ ¬ w.Unparentable e parent := by
    rw [parentRefusal_eq_none_iff, not_unparentable_iff]
    simp only [walk]
  unfold setParent
  cases refusal : w.parentRefusal e parent with
  | none => exact iff_of_false nofun (accepted.1 refusal)
  | some reason =>
    refine iff_of_true rfl (Classical.not_not.1 fun fine => ?_)
    rw [accepted.2 fine] at refusal
    cases refusal

/-! ## What becomes of the links -/

/-- What a world is like after an entity has been put under a parent, or under none. -/
structure Reparented (w w' : World K B) (e : EntityId) (parent : Option EntityId) : Prop where
  parents : ∀ x, w'.parent? x = if x = e then parent else w.parent? x
  /-- The old parent keeps its other children, in order. -/
  left : ∀ old, w.parent? e = some old → parent ≠ some old →
    w'.children old = (w.children old).filter (· != e)
  /-- The new parent has the entity last, also where it had it before. -/
  joined : ∀ new, parent = some new →
    w'.children new = (w.children new).filter (· != e) ++ [e]
  elsewhere : ∀ x, w.parent? e ≠ some x → parent ≠ some x → w'.children x = w.children x
  /-- Positions, rotations and scales, actors, components and all else are as they were. -/
  only : OnlyLinks w w'

/-- An entity with a place leaves all lists of children that it is on. -/
theorem Traceable.children_leave (h : w.Traceable) (place : (w.transform? e).isSome)
    (x : EntityId) : (w.leave e).children x = (w.children x).filter (· != e) :=
  World.children_leave (fun y child => h.parent e y child place) x

/-- A parent that is not refused is taken. -/
theorem Traceable.reparented (h : w.Traceable) (accepted : w.parentRefusal e parent = none) :
    w.Reparented (w.setParent e parent).2 e parent := by
  have place := ((parentRefusal_eq_none_iff w e parent).1 accepted).1
  have children : ∀ x, (w.setParent e parent).2.children x
      = (w.children x).filter (· != e) ++ if parent = some x then [e] else [] := by
    intro x
    rw [children_setParent accepted, h.children_leave place]
  refine ⟨parent?_setParent accepted, fun old _ other => ?_, fun new here => ?_,
    fun x apart other => ?_, onlyLinks_setParent w e parent⟩
  · rw [children, if_neg other, List.append_nil]
  · rw [children, if_pos here]
  · rw [children, if_neg other, List.append_nil]
    refine List.filter_eq_self.2 fun y child => bne_iff_ne.2 ?_
    rintro rfl
    exact apart (h.parent y x child place)

end World

section Parenting

variable [Scalar K] [Behavior K B]

/-- Putting an entity under a parent is done or refused as a whole, at every instant of every scene.
It is refused exactly where the entity or the parent has no place or the parent is the entity itself
or below it, and then no place changes and nothing else but that a warning is written. Otherwise the
entity is the last child of its new parent, it has left the old one, and nothing else has changed
but matrices. -/
theorem reparenting_is_all_or_nothing {w : World K B} (h : AtInstant w) (e : EntityId)
    (parent : Option EntityId) :
    ∃ accepted w', (∀ respond : Impulse K → SceneM K B Unit,
        SceneM.performWith respond (.edit (.setParent e parent)) w = .ok accepted w') ∧
      (accepted = false ↔ w.Unparentable e parent) ∧
      (accepted = false → (∀ x, w'.transform? x = w.transform? x) ∧
        w' = { w with journal := w'.journal }) ∧
      (accepted = true → w.Reparented w' e parent) := by
  have traceable := h.traceable
  refine ⟨(w.setParent e parent).1, (w.setParent e parent).2, fun _ => rfl,
    World.refused_iff traceable.acyclic, fun refused => ?_, fun done => ?_⟩
  · unfold World.setParent at refused ⊢
    split at refused
    · exact ⟨fun _ => rfl, rfl⟩
    · cases refused
  · refine traceable.reparented ?_
    unfold World.setParent at done
    split at done
    · cases done
    · assumption

end Parenting

/-! ## Three generations -/

/-- Three actors one under the other, and one more under the first. -/
def generations : Program Float32 Empty Unit := do
  let a ← Program.edit (.spawn (.named "a"))
  let b ← Program.edit (.spawn { ActorSpec.named "b" with parent := some a })
  let _ ← Program.edit (.spawn { ActorSpec.named "c" with parent := some b })
  let _ ← Program.edit (.spawn { ActorSpec.named "d" with parent := some a })
  return ()

/-- The first is refused as a child of the last, and the second comes behind the other child when it
is put under its own parent. -/
theorem reparenting_is_all_or_nothing_generations :
    ∃ w : World Float32 Empty, AtInstant w ∧ w.Unparentable ⟨0⟩ (some ⟨2⟩) ∧
      (∃ w', SceneM.perform (.edit (.setParent ⟨0⟩ (some ⟨2⟩))) w = .ok false w' ∧
        ∀ x, w'.transform? x = w.transform? x) ∧
      ∃ w', SceneM.perform (.edit (.setParent ⟨1⟩ (some ⟨0⟩))) w = .ok true w' ∧
        w.Reparented w' ⟨1⟩ (some ⟨0⟩) ∧ w'.children ⟨0⟩ = [⟨3⟩, ⟨1⟩] := by
  have run : generations.passes .bare fun _ w => decide (w.children ⟨0⟩ = [⟨1⟩, ⟨3⟩]) &&
      decide (w.parent? ⟨2⟩ = some ⟨1⟩) && decide (w.parent? ⟨1⟩ = some ⟨0⟩) &&
      (w.setParent ⟨1⟩ (some ⟨0⟩)).1 := by decide +kernel
  obtain ⟨_, w, hrun, checked⟩ := Program.exists_of_passes run
  simp only [Bool.and_eq_true, decide_eq_true_eq] at checked
  obtain ⟨⟨⟨children, above⟩, top⟩, fine⟩ := checked
  have h : AtInstant w := (Reachable.step (.empty rfl rfl rfl rfl)
    (.program (Scope.fit_everything _) hrun)).moment.instant
  have cycle : w.Unparentable ⟨0⟩ (some ⟨2⟩) := .inr ⟨⟨2⟩, rfl, .inr (.head above (.single top))⟩
  obtain ⟨refused, v, hv, refusal, nothing, -⟩ := reparenting_is_all_or_nothing h ⟨0⟩ (some ⟨2⟩)
  obtain ⟨accepted, v', hv', -, -, reparented⟩ := reparenting_is_all_or_nothing h ⟨1⟩ (some ⟨0⟩)
  cases refusal.2 cycle
  obtain rfl : true = accepted := by
    have same := hv' fun _ => pure ()
    cases same
    exact fine.symm
  refine ⟨w, h, cycle, ⟨v, hv _, (nothing rfl).1⟩, v', hv' _, reparented rfl, ?_⟩
  rw [(reparented rfl).joined ⟨0⟩ rfl, children]
  rfl

end SheepScene
