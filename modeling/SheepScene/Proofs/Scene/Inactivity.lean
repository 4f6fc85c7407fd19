import SheepScene.Proofs.Scene.Caching
import SheepScene.Proofs.Scene.Switchboard

/-!
# Switching an actor off and on again

Whether an actor is active depends on its own state and on the states of all actors above it. An
actor that is switched off takes with it all that stand below it, and no others, and when it is
switched on again everybody is as active as before, those included that were inactive on their own
account (`deactivation_is_hierarchical_and_reversible`). Movers and listeners that are told on the
way change neither the tree nor the state of an actor nor a switch (`World.Unturned`).
-/

set_option autoImplicit false

namespace SheepScene

variable {K B : Type}

namespace World

/-- Worlds with the same tree, in which all actors and all switches are the same. -/
structure Unturned (w w' : World K B) : Prop where
  ties : SameTies w w'
  actors : ∀ x, w'.actor? x = w.actor? x
  panels : ∀ x, w'.panel x = w.panel x

namespace Unturned

variable {w w' w₁ : World K B}

/-- Being unturned is transitive. -/
theorem trans (h : Unturned w w₁) (h' : Unturned w₁ w') : Unturned w w' where
  ties := h.ties.trans h'.ties
  actors x := (h'.actors x).trans (h.actors x)
  panels x := (h'.panels x).trans (h.panels x)

/-- Where the entities are the same nothing has been turned. -/
theorem of_entities (entities : w'.entities = w.entities) : Unturned w w' where
  ties := .of_entities entities
  actors x := by
    unfold actor? entity?
    rw [entities]
  panels x := by
    unfold panel slots? entity?
    rw [entities]

/-- Whatever keeps the links turns nothing. -/
theorem of_sameLinks (h : SameLinks w w') : Unturned w w' where
  ties := .of_sameLinks h
  actors := h.onlyPlaces.actor?
  panels x := panel_congr (h.onlyPlaces.slots? x)

/-- Putting a component into its cell turns nothing. -/
theorem setComponent (w : World K B) (e : EntityId) (index : Nat) (c : Option (Component K B)) :
    Unturned w (w.setComponent e index c) where
  ties := .of_sameScene (.modifySlots w e _)
  actors := actor?_modifySlot w e index _
  panels := panel_setComponent w e index c

end Unturned

variable {w w' : World K B} {a : EntityId}

/-- An actor that is not in the active state, and those below it, are inactive; for all others its
state does not matter. -/
theorem isActive_iff_of_off (acyclic : ∀ e, ¬ Relation.TransGen w.Above e e)
    (ties : SameTies w w') (others : ∀ x, x ≠ a → w'.actor? x = w.actor? x) {b : Actor K}
    (here : w'.actor? a = some b) (off : b.state ≠ .active) (x : EntityId) :
    w'.isActive x = true ↔ w.isActive x = true ∧ ¬ w.Below x a := by
  rw [isActive_iff, isActive_iff, lineage_congr ties.size ties.parents, ties.actors x,
    ← mem_lineage_iff acyclic]
  constructor
  · rintro ⟨isActor, all⟩
    have apart : a ∉ w.lineage x := fun member => off (all a member b here)
    refine ⟨⟨isActor, fun y member c hc => all y member c ?_⟩, apart⟩
    rw [others y fun same => apart (same ▸ member), hc]
  · rintro ⟨⟨isActor, all⟩, apart⟩
    refine ⟨isActor, fun y member c hc => all y member c ?_⟩
    rw [← others y fun same => apart (same ▸ member), hc]

end World

section Background

variable [Scalar K] [Behavior K B]

open World

/-- Modest edits change places at most. -/
theorem Edit.Modest.apply {x : Edit K B} (modest : x.Modest) (w : World K B) :
    (w.apply x).2.entities = w.entities ∨ SameLinks w (w.apply x).2 := by
  cases x with
  | placeInWorld e placement => exact .inr (sameLinks_placeInWorld w e placement)
  | completeWait | publishListener | log | note | probed => exact .inl rfl
  | _ => exact absurd modest id

/-- Modest requests turn nothing. -/
theorem background_modest (e : EntityId) :
    Background e (Request.Modest (K := K) (B := B)) Unturned where
  refl w := .of_entities rfl
  trans := .trans
  record w event := .of_entities rfl
  setComponent w := .setComponent w e
  simple request modest compound := by
    cases request <;> first | exact modest | exact compound
  edit w x modest := by
    rcases Edit.Modest.apply modest w with entities | links
    · exact .of_entities entities
    · exact .of_sameLinks links
  own w x modest known := by
    rcases Edit.Modest.apply modest w with entities | links
    · exact .of_entities entities
    · exact .of_onlyPlaces links.onlyPlaces

end Background

/-! ## Off and on -/

section Switching

variable [Scalar K] [Behavior K B] {w v : World K B} {a : EntityId} {actor : Actor K}

/-- An actor that has movers and listeners only is switched, and nothing else is. -/
theorem SceneM.exists_switched (depth : Nat) (ease : w.AtEase Component.BuiltIn a)
    (there : w.actor? a = some actor) {on : Bool} {state : ActorState}
    (switched : SceneM.switched actor.state on = some state)
    (watching : (Behavior.observe (if on then .activated a else .deactivated a) :
      Program K B Unit).Only Request.Reads) :
    ∃ w', SceneM.performWith (SceneM.respond (depth + 1)) (.setActive a on) w = .ok () w' ∧
      w'.AtEase Component.BuiltIn a ∧ World.SameTies w w' ∧
      (∀ x, x ≠ a → w'.actor? x = w.actor? x) ∧ w'.actor? a = some { actor with state } ∧
      ∀ x, w'.panel x = w.panel x := by
  obtain ⟨w', run, briefed⟩ := SceneM.exists_setActive (background_modest a)
    (composed_builtIn a) depth ease there switched (watching.mono fun _ => Request.Reads.modest)
  have actors := fun x => (briefed.related.actors x).trans (World.actor?_modifyActor w a _ x)
  refine ⟨w', run, briefed.ease, ?_, fun x other => ?_, ?_, fun x => ?_⟩
  · exact (World.SameTies.of_sameScene (.modifyActor w a _)).trans briefed.related.ties
  · rw [actors, if_neg other]
  · rw [actors, if_pos rfl, there, Option.map_some]
  · rw [briefed.related.panels, World.panel_congr (World.slots?_modifyActor w a _ x)]

/-- An actor that is switched off makes itself and those below it inactive, on top of those that
were inactive already, and nobody else; when it is switched on again, everybody is as active as
before. Neither changes the own state of another actor or a switch of any component. This is so at
every moment of every scene, whatever the tree is like and whatever else is inactive or destroyed,
provided that the components of the actor are movers and listeners and that those who observe the
switch only look. -/
theorem deactivation_is_hierarchical_and_reversible {fit : Fitness K B} (h : AtMoment fit w)
    (there : w.actor? a = some actor) (active : actor.state = .active)
    (builtIn : ∀ index slot c, w.slot? a index = some slot → slot.component = some c → c.BuiltIn)
    (watching : ∀ on : Bool, (Behavior.observe (if on then .activated a else .deactivated a) :
      Program K B Unit).Only Request.Reads) (depth : Nat) :
    ∃ w₁ w₂,
      SceneM.performWith (SceneM.respond (depth + 1)) (.setActive a false) w = .ok () w₁ ∧
      SceneM.performWith (SceneM.respond (depth + 1)) (.setActive a true) w₁ = .ok () w₂ ∧
      (∀ x, w₁.isActive x = true ↔ w.isActive x = true ∧ ¬ w.Below x a) ∧
      (∀ x, w₂.isActive x = w.isActive x) ∧
      (∀ x, x ≠ a → w₁.actor? x = w.actor? x) ∧
      w₁.actor? a = some { actor with state := .inactive } ∧
      (∀ x, w₂.actor? x = w.actor? x) ∧
      ∀ x, w₁.panel x = w.panel x ∧ w₂.panel x = w.panel x := by
  have ease : w.AtEase Component.BuiltIn a := h.atEase builtIn
  have goes : SceneM.switched actor.state false = some .inactive := by
    rw [active]
    rfl
  have comes : SceneM.switched .inactive true = some .active := rfl
  obtain ⟨w₁, off, ease₁, ties₁, others₁, here₁, panels₁⟩ :=
    SceneM.exists_switched depth ease there goes (watching false)
  obtain ⟨w₂, on, -, ties₂, others₂, here₂, panels₂⟩ :=
    SceneM.exists_switched depth ease₁ here₁ comes (watching true)
  have actors : ∀ x, w₂.actor? x = w.actor? x := by
    intro x
    by_cases same : x = a
    · subst same
      rw [here₂, there, ← active]
    · rw [others₂ x same, others₁ x same]
  have ties := ties₁.trans ties₂
  exact ⟨w₁, w₂, off, on,
    World.isActive_iff_of_off h.traceable.acyclic ties₁ others₁ here₁ (by simp),
    World.isActive_congr ties.size ties.parents actors, others₁, here₁, actors,
    fun x => ⟨panels₁ x, (panels₂ x).trans (panels₁ x)⟩⟩

end Switching

/-! ## A homestead -/

/-- Three actors one under the other, the last of which is inactive, and one more beside them. The
first one moves and listens. -/
def homestead : Program Float32 Empty Unit := do
  let a ← Program.edit (.spawn (.named "a"))
  let b ← Program.edit (.spawn { ActorSpec.named "b" with parent := some a })
  let _ ← Program.edit (.spawn { ActorSpec.named "c" with parent := some b, active := false })
  let _ ← Program.edit (.spawn (.named "d"))
  let _ ← Program.edit (.add a (.mover (.start ⟨3, 0, 0⟩ 8 .linear none)))
  let _ ← Program.edit (.add a .listener)
  return ()

/-- Without the first one nobody is active but the one beside it, and with it all are again but the
one that was inactive before. -/
theorem deactivation_is_hierarchical_and_reversible_homestead :
    ∃ w w₁ w₂ : World Float32 Empty, AtMoment (Scope.everything Float32 Empty).fit w ∧
      w.panel ⟨0⟩ = [(.mover, true), (.listener, true)] ∧
      SceneM.perform (.setActive ⟨0⟩ false) w = .ok () w₁ ∧
      SceneM.perform (.setActive ⟨0⟩ true) w₁ = .ok () w₂ ∧
      [0, 1, 2, 3].map (w.isActive ⟨·⟩) = [true, true, false, true] ∧
      [0, 1, 2, 3].map (w₁.isActive ⟨·⟩) = [false, false, false, true] ∧
      [0, 1, 2, 3].map (w₂.isActive ⟨·⟩) = [true, true, false, true] := by
  have run : homestead.passes .bare fun _ w =>
      decide ((w.actor? ⟨0⟩).map (·.state) = some .active) &&
      decide (w.panel ⟨0⟩ = [(.mover, true), (.listener, true)]) &&
      decide ([0, 1, 2, 3].map (w.isActive ⟨·⟩) = [true, true, false, true]) &&
      decide ([0, 1, 2, 3].map (w.lineage ⟨·⟩)
        = [[⟨0⟩], [⟨1⟩, ⟨0⟩], [⟨2⟩, ⟨1⟩, ⟨0⟩], [⟨3⟩]]) := by decide +kernel
  obtain ⟨_, w, hrun, checked⟩ := Program.exists_of_passes run
  simp only [Bool.and_eq_true, decide_eq_true_eq] at checked
  obtain ⟨⟨⟨own, panel⟩, before⟩, lineages⟩ := checked
  obtain ⟨actor, there, active⟩ := Option.map_eq_some_iff.1 own
  have h : AtMoment (Scope.everything Float32 Empty).fit w := Reachable.moment
    (.step (.empty rfl rfl rfl rfl) (.program (Scope.fit_everything homestead) hrun))
  obtain ⟨depth, limit⟩ := SceneM.exists_hookLimit
  obtain ⟨w₁, w₂, off, on, fewer, same, -⟩ := deactivation_is_hierarchical_and_reversible h there
    active (fun _ _ c _ _ => c.builtIn) (fun _ => trivial) depth
  simp only [List.map_cons, List.map_nil, List.cons.injEq, and_true] at before lineages
  obtain ⟨first, second, third, fourth⟩ := lineages
  have left : ∀ x, w₁.isActive x = (w.isActive x && !decide (⟨0⟩ ∈ w.lineage x)) := by
    intro x
    rw [Bool.eq_iff_iff, fewer, ← World.mem_lineage_iff h.traceable.acyclic]
    simp
  refine ⟨w, w₁, w₂, h, panel, by rw [SceneM.perform, limit]; exact off,
    by rw [SceneM.perform, limit]; exact on, ?_, ?_, ?_⟩
  · simp [before]
  · simp [left, first, second, third, fourth, before]
  · simp [same, before]

end SheepScene
