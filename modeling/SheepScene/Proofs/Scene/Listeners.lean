import SheepScene.Proofs.Scene.Ancestry
import SheepScene.Proofs.Scene.Looking
import SheepScene.Proofs.Scene.Passes
import SheepScene.Proofs.Scene.Serving

/-!
# Whose ears are heard with

A listener publishes where its actor is when the second pass of a frame reaches it. In scenes
without custom components nothing moves from there on: the other hooks of the pass and observers
that only look leave all places as they are (`World.Hearing`), and the sweep takes out nobody above
an active actor. So the last actor with a listener that the pass reaches is the one that is heard
from after the frame, where it is then (`World.HearsFrom`).
-/

set_option autoImplicit false

namespace SheepScene

variable {K B : Type}

namespace World

/-! ## Components that go back into their slots as they were -/

/-- Two changes of an entity are one change. -/
theorem modifyEntity_modifyEntity (w : World K B) (e : EntityId) (f g : Entity K B → Entity K B) :
    (w.modifyEntity e f).modifyEntity e g = w.modifyEntity e (g ∘ f) := by
  unfold modifyEntity
  dsimp only
  congr 1
  refine Array.ext_getElem? fun i => ?_
  simp only [Array.getElem?_modify]
  split <;> simp

/-- A change that changes nothing leaves the world as it is. -/
theorem modifyEntity_eq_self {w : World K B} {e : EntityId} {f : Entity K B → Entity K B}
    (same : ∀ x, w.entity? e = some x → f x = x) : w.modifyEntity e f = w := by
  have entities : w.entities.modify e.index (Option.map f) = w.entities := by
    refine Array.ext_getElem? fun i => ?_
    rw [Array.getElem?_modify]
    split
    · rename_i here
      subst here
      cases found : w.entities[e.index]? with
      | none => rfl
      | some entity =>
        cases entity with
        | none => rfl
        | some x =>
          have there : w.entity? e = some x := by
            rw [entity?, found]
            rfl
          simp [same x there]
    · rfl
  unfold modifyEntity
  rw [entities]

/-- A component is taken out of its slot and put back. -/
theorem setComponent_restored {w : World K B} {e : EntityId} {index : Nat} {slot : Slot K B}
    {component : Component K B} (there : w.slot? e index = some slot)
    (present : slot.component = some component) :
    (w.setComponent e index none).setComponent e index (some component) = w := by
  refine (modifyEntity_modifyEntity w e _ _).trans (modifyEntity_eq_self fun x found => ?_)
  obtain ⟨slots, hslots, hslot⟩ := Option.bind_eq_some_iff.1 there
  rw [slots?, found, Option.bind_some] at hslots
  have same : (slots.modify index fun slot => { slot with component := none }).modify index
      (fun slot => { slot with component := some component }) = slots := by
    refine Array.ext_getElem? fun i => ?_
    simp only [Array.getElem?_modify]
    split
    · rename_i here
      subst here
      rw [hslot, ← present]
      rfl
    · rfl
  show { x with slots := _ } = x
  dsimp only
  rw [hslots, Option.map_some, Option.map_some, same, ← hslots]

/-- Changing a slot leaves all places alone. -/
theorem transform?_modifySlot (w : World K B) (e : EntityId) (index : Nat)
    (f : Slot K B → Slot K B) (x : EntityId) :
    (w.modifySlot e index f).transform? x = w.transform? x :=
  (SameScene.modifySlots w e _).transform? x

/-- Changing a slot leaves all matrices alone that are known. -/
theorem matrix?_modifySlot (w : World K B) (e : EntityId) (index : Nat) (f : Slot K B → Slot K B)
    (x : EntityId) : (w.modifySlot e index f).matrix? x = w.matrix? x := by
  rw [matrix?, transform?_modifySlot]
  rfl

/-- Changing a slot leaves all rotations alone. -/
theorem worldRotation?_modifySlot [Scalar K] (w : World K B) (e : EntityId) (index : Nat)
    (f : Slot K B → Slot K B) (x : EntityId) :
    (w.modifySlot e index f).worldRotation? x = w.worldRotation? x := by
  refine worldRotation?_congr ?_ fun y _ => by rw [transform?_modifySlot]
  refine lineage_congr Array.size_modify (fun y => ?_) x
  rw [parent?, transform?_modifySlot]
  rfl

/-- Looking does not depend on what is in the slots. -/
theorem Looked.modifySlot {w w' : World K B} (h : Looked w w') (e : EntityId) (index : Nat)
    (f : Slot K B → Slot K B) : Looked (w.modifySlot e index f) (w'.modifySlot e index f) := by
  refine ⟨⟨?_, ?_, fun x => ?_⟩, fun x m known => ?_⟩
  · rw [h.settles.rest]
    rfl
  · exact (Array.size_modify.trans h.settles.size).trans Array.size_modify.symm
  · have same := h.settles.entity x
    unfold World.modifySlot modifySlots
    rw [entity?_modifyEntity, entity?_modifyEntity]
    split
    · have changed := congrArg (Option.map fun s => (s.1, s.2.1,
        s.2.2.1.map fun slots => slots.modify index f, s.2.2.2)) same
      rw [Option.map_map, Option.map_map] at changed
      rw [Option.map_map, Option.map_map]
      exact changed
    · exact same
  · rw [matrix?_modifySlot] at known ⊢
    exact h.known x m known

/-- Looking while a component is out of its slot comes to looking. -/
theorem Looked.restored {w w' : World K B} {e : EntityId} {index : Nat} {slot : Slot K B}
    {component : Component K B} (h : Looked (w.setComponent e index none) w')
    (there : w.slot? e index = some slot) (present : slot.component = some component) :
    Looked w (w'.setComponent e index (some component)) := by
  have back : Looked ((w.setComponent e index none).setComponent e index (some component))
      (w'.setComponent e index (some component)) := h.modifySlot e index _
  rwa [setComponent_restored there present] at back

/-! ## Hearing -/

section Hearing

variable [Scalar K]

/-- There is an enabled listener at a place of an actor. -/
def Ear (w : World K B) (e : EntityId) (index : Nat) : Prop :=
  ∃ slot, w.slot? e index = some slot ∧ slot.enabled ∧ slot.component = some .listener

/-- An actor that takes part in updates, is active, and has an enabled listener. -/
structure Listening (w : World K B) (e : EntityId) : Prop where
  updated : ∃ a, w.actor? e = some a ∧ a.updateEnabled
  active : w.isActive e
  ear : ∃ index, w.Ear e index

/-- The scene is heard from where an entity is. -/
def HearsFrom (w : World K B) (e : EntityId) : Prop :=
  ∃ position rotation, w.listener = some ⟨some e, position, rotation⟩ ∧
    (w.worldPosition e).1 = some position ∧ w.worldRotation? e = some rotation

/-- The scene is heard from where an entity is, and the matrix of the entity is known. -/
def Tuned (w : World K B) (e : EntityId) : Prop :=
  ∃ m q, w.matrix? e = some m ∧ w.worldRotation? e = some q ∧
    w.listener = some ⟨some e, m.origin, q⟩

/-- Who is tuned in to an entity hears from where it is. -/
theorem Tuned.hearsFrom {w : World K B} {e : EntityId} (h : w.Tuned e) : w.HearsFrom e := by
  obtain ⟨m, q, known, rotation, listener⟩ := h
  exact ⟨m.origin, q, listener, by rw [worldPosition_eq known], rotation⟩

/-- Worlds between which there was only looking, but for who is heard from. -/
abbrev Hearing (w w' : World K B) : Prop :=
  Looked { w with listener := w'.listener } w'

variable {w w₁ w' : World K B} {e : EntityId}

omit [Scalar K] in
/-- Looking does not change who is heard from. -/
theorem Looked.listener (h : Looked w w') : w'.listener = w.listener := by
  rw [h.settles.rest]

omit [Scalar K] in
/-- Worlds between which there was only looking differ at most in who is heard from. -/
theorem Looked.hearing (h : Looked w w') : Hearing w w' := by
  have same : { w with listener := w'.listener } = w := by rw [h.listener]
  rwa [Hearing, same]

omit [Scalar K] in
/-- Looking does not depend on who is heard from. -/
theorem Looked.listening (h : Looked w w') (listener : Option (ListenerPose K)) :
    Looked { w with listener } { w' with listener } := by
  refine ⟨⟨?_, h.settles.size, h.settles.entity⟩, h.known⟩
  rw [h.settles.rest]

namespace Hearing

omit [Scalar K] in
/-- Hearing is transitive. -/
theorem trans (h : Hearing w w₁) (h' : Hearing w₁ w') : Hearing w w' :=
  (Looked.listening h w'.listener).trans h'

variable (h : Hearing w w')
include h

omit [Scalar K] in
/-- Hearing leaves the actors alone. -/
theorem actor? (e : EntityId) : w'.actor? e = w.actor? e :=
  h.settles.sameLinks.onlyPlaces.actor? e

omit [Scalar K] in
/-- Hearing leaves the components of actors alone. -/
theorem slots? (e : EntityId) : w'.slots? e = w.slots? e :=
  h.settles.sameLinks.onlyPlaces.slots? e

omit [Scalar K] in
/-- Hearing leaves every slot alone. -/
theorem slot? (e : EntityId) (index : Nat) : w'.slot? e index = w.slot? e index := by
  rw [World.slot?, h.slots?]
  rfl

omit [Scalar K] in
/-- Hearing leaves the lines of ancestors alone. -/
theorem lineage (e : EntityId) : w'.lineage e = w.lineage e :=
  lineage_congr (w := w) h.settles.size (fun x => h.settles.sameLinks.parent? x) e

omit [Scalar K] in
/-- Hearing makes no actor active or inactive. -/
theorem isActive (e : EntityId) : w'.isActive e = w.isActive e :=
  isActive_congr (w := w) h.settles.size (fun x => h.settles.sameLinks.parent? x) h.actor? e

omit [Scalar K] in
/-- Hearing neither makes nor removes places. -/
theorem isSome_transform? (e : EntityId) : (w'.transform? e).isSome = (w.transform? e).isSome :=
  h.settles.sameLinks.onlyPlaces.isSome_transform? e

omit [Scalar K] in
/-- Hearing leaves a scene at rest. -/
theorem rested (rested : w.Rested) : w'.Rested := by
  intro x slot there
  rw [h.slot?] at there
  exact rested x slot there

omit [Scalar K] in
/-- Hearing leaves a scene traceable. -/
theorem traceable (traceable : w.Traceable) : w'.Traceable := by
  have same : SameTies w { w with listener := w'.listener } := .of_entities rfl
  exact traceable.congr (same.trans (.of_settles h.settles))

/-- Hearing leaves rotations alone. -/
theorem worldRotation? (e : EntityId) : w'.worldRotation? e = w.worldRotation? e := by
  refine worldRotation?_congr (h.lineage e) fun x _ => ?_
  refine h.settles.map_transform? (fun x y same => ?_) x
  simp only [Entity.settled, Prod.mk.injEq] at same
  have := congrArg (Option.map fun p => p.2.2.2.2.1) same.2.2.2
  simpa only [Option.map_map, Function.comp_def, Entity.fixedPlace] using this

/-- Who is heard from stays the same until somebody else is. -/
theorem tuned (tuned : w.Tuned e) (same : w'.listener = w.listener) : w'.Tuned e := by
  obtain ⟨m, q, known, rotation, listener⟩ := tuned
  exact ⟨m, q, h.known e m known, (h.worldRotation? e).trans rotation, same.trans listener⟩

omit [Scalar K] in
/-- Hearing leaves ears where they are. -/
theorem ear {index : Nat} : w'.Ear e index ↔ w.Ear e index := by
  rw [Ear, h.slot?]
  rfl

omit [Scalar K] in
/-- Hearing leaves those listening who listen. -/
theorem listening : w'.Listening e ↔ w.Listening e := by
  constructor
  · rintro ⟨updated, active, index, ear⟩
    rw [h.actor?] at updated
    rw [h.isActive] at active
    exact ⟨updated, active, index, h.ear.1 ear⟩
  · rintro ⟨updated, active, index, ear⟩
    rw [← h.actor?] at updated
    rw [← h.isActive] at active
    exact ⟨updated, active, index, h.ear.2 ear⟩

end Hearing

/-- What a late update does, as far as hearing goes: where there is an ear, the scene is heard from
there, and otherwise it is heard from where it was. -/
structure Heeds (w w' : World K B) (e : EntityId) (ear : Prop) : Prop where
  hearing : w.Hearing w'
  tuned : ear → w'.Tuned e
  same : ¬ ear → w'.listener = w.listener

/-- One late update after another. -/
theorem Heeds.then {w u w' : World K B} {e : EntityId} {ear ear' : Prop} (h : Heeds w u e ear)
    (h' : Heeds u w' e ear') : Heeds w w' e (ear ∨ ear') where
  hearing := h.hearing.trans h'.hearing
  tuned either := by
    by_cases later : ear'
    · exact h'.tuned later
    · exact h'.hearing.tuned (h.tuned (either.resolve_right later)) (h'.same later)
  same neither := by
    rw [not_or] at neither
    exact (h'.same neither.2).trans (h.same neither.1)

end Hearing

end World

/-! ## The second pass -/

section Pass

variable [Scalar K] [Behavior K B]

open World

/-- A listener publishes where its actor is. -/
theorem run_listener {respond : Impulse K → SceneM K B Unit} {w w' : World K B} {e : EntityId}
    {dt : K} {position : Vec3 K} {rotation : Quat K}
    (found : w.worldPosition e = (some position, w'))
    (turned : w'.worldRotation? e = some rotation) :
    ((Component.listener : Component K B).react e (.lateUpdate dt)).run
        (SceneM.performWith respond) w
      = .ok .listener { w' with listener := some ⟨some e, position, rotation⟩ } := by
  unfold Component.react listenerReact
  dsimp only
  refine (bind_of_ok (t := w') (a := some position) ?_).trans ?_
  · change EStateM.Result.ok (w.worldPosition e).1 (w.worldPosition e).2 = _
    rw [found]
  · refine (bind_of_ok (t := w') (a := some rotation) ?_).trans ?_
    · change EStateM.Result.ok (w'.worldRotation? e) w' = _
      rw [turned]
    · rfl

variable [IsEmpty B]

/-- In a late update of a component, at most the listener does something. -/
theorem exists_respond_lateUpdate (depth : Nat) {w : World K B} {e : EntityId} {index : Nat}
    {slot : Slot K B} {component : Component K B} (dt : K) (there : w.slot? e index = some slot)
    (present : slot.component = some component) (nothing : slot.deferred = [])
    (place : (w.transform? e).isSome) :
    ∃ w', SceneM.respond (depth + 1) (.hook e index (.lateUpdate dt)) w = .ok () w' ∧
      w.Hearing w' ∧ (component = .listener → w'.Tuned e) ∧
      (component ≠ .listener → w'.listener = w.listener) := by
  -- The component is out of its slot from here on, and goes back as it was.
  let out := (w.setComponent e index none).record (.hook e index .began (.lateUpdate dt))
  have left : (w.setComponent e index none).Looked out := .record _ _
  have empty : ∀ w' : World K B, out.Hearing w' →
      w'.slot? e index = some { slot with component := none } := by
    intro w' hearing
    rw [hearing.slot?]
    refine (slot?_modifySlot w e index _ (e, index)).trans ?_
    rw [if_pos rfl, there]
    rfl
  cases component with
  | custom b => exact isEmptyElim b
  | mover m =>
    have here := empty out (Looked.refl out).hearing
    have looked := (left.trans (.record out (.hook e index .ended (.lateUpdate dt)))).restored
      there present
    exact ⟨_, SceneM.respond_of_run there present rfl here nothing, looked.hearing, nofun,
      fun _ => looked.listener⟩
  | listener =>
    have place : (out.transform? e).isSome := by
      have same : out.transform? e = w.transform? e := transform?_modifySlot w e index _ e
      rwa [same]
    obtain ⟨m, answer, known⟩ := exists_matrix?_localToWorld place
    have looked := looked_localToWorld out e
    have found : out.worldPosition e = (some m.origin, (out.localToWorld e).2) := by
      change ((out.localToWorld e).1.map Mat4.origin, (out.localToWorld e).2) = _
      rw [answer]
      rfl
    obtain ⟨q, rotation⟩ : ∃ q, (out.localToWorld e).2.worldRotation? e = some q := by
      rw [looked.hearing.worldRotation?, ← Option.isSome_iff_exists, worldRotation?,
        Option.isSome_map]
      exact place
    let pose : ListenerPose K := ⟨some e, m.origin, q⟩
    let published : World K B := { (out.localToWorld e).2 with listener := some pose }
    have here := empty published (looked.listening (some pose))
    have back : Looked { w with listener := some pose }
        ((published.record (.hook e index .ended (.lateUpdate dt))).setComponent e index
          (some .listener)) :=
      Looked.restored (((left.trans looked).listening (some pose)).trans (.record published _))
        there present
    refine ⟨_, SceneM.respond_of_run there present (run_listener found rotation) here nothing, back,
      fun _ => ⟨m, q, ?_, ?_, rfl⟩, fun other => absurd rfl other⟩
    · rw [matrix?_modifySlot]
      exact known
    · have heard : (out.localToWorld e).2.Hearing
          (published.record (.hook e index .ended (.lateUpdate dt))) := Looked.record published _
      rw [worldRotation?_modifySlot, heard.worldRotation?, rotation]

variable {depth : Nat} {w w' : World K B} {e : EntityId} {dt : K}

/-- A late update that is sent to a component is heeded if the component is an ear. -/
theorem heeds_dispatch (rested : w.Rested) (place : (w.transform? e).isSome) {index : Nat}
    (hrun : SceneM.dispatch (SceneM.respond depth) e (.lateUpdate dt) index w = .ok () w') :
    Heeds w w' e (w.Ear e index) := by
  unfold SceneM.dispatch at hrun
  obtain ⟨_, _, hget, hrun⟩ := bind_ok hrun
  cases hget
  by_cases enabled : w.slotEnabled e index
  · simp only [enabled, if_true] at hrun
    obtain ⟨slot, there⟩ := exists_slot_of_slotEnabled enabled
    rw [slotEnabled_of_slot? there] at enabled
    obtain ⟨present, nothing⟩ := rested (e, index) slot there
    obtain ⟨component, present⟩ := Option.isSome_iff_exists.1 present
    cases depth with
    | zero => cases hrun
    | succ depth =>
      obtain ⟨v, run, hearing, tuned, same⟩ :=
        exists_respond_lateUpdate depth dt there present nothing place
      cases run.symm.trans hrun
      refine ⟨hearing, fun ⟨slot', there', _, listener⟩ => tuned ?_, fun none => same ?_⟩
      · cases there.symm.trans there'
        exact Option.some.inj (present.symm.trans listener)
      · rintro rfl
        exact none ⟨slot, there, enabled, present⟩
  · simp only [enabled] at hrun
    cases hrun
    refine ⟨(Looked.refl w).hearing, fun ⟨slot, there, on, _⟩ => absurd ?_ enabled, fun _ => rfl⟩
    rw [slotEnabled_of_slot? there]
    exact on

/-- A late update that is sent to several is heeded if there is an ear among them. -/
theorem heeds_lookedAt (rested : w.Rested) (place : (w.transform? e).isSome)
    (active : w.isActive e) {indices : List Nat} {looks : List (Look K B)}
    (hrun : SceneM.lookedAt (SceneM.respond depth) e (.lateUpdate dt) indices w = .ok looks w') :
    Heeds w w' e (∃ index ∈ indices, w.Ear e index) := by
  induction indices generalizing w looks with
  | nil =>
    cases hrun
    refine ⟨(Looked.refl _).hearing, fun ⟨_, member, _⟩ => ?_, fun _ => rfl⟩
    exact absurd member List.not_mem_nil
  | cons index rest ih =>
    unfold SceneM.lookedAt at hrun
    obtain ⟨_, _, hget, hrun⟩ := bind_ok hrun
    cases hget
    simp only [active, if_true] at hrun
    obtain ⟨_, w₁, hdispatch, hrun⟩ := bind_ok hrun
    obtain ⟨looks, w₂, hlooks, hpure⟩ := bind_ok hrun
    cases hpure
    have first := heeds_dispatch rested place hdispatch
    have hearing := first.hearing
    have others := ih (hearing.rested rested) ((hearing.isSome_transform? e).trans place)
      ((hearing.isActive e).trans active) hlooks
    simp only [hearing.ear] at others
    simpa using first.then others

/-- The pass reaches an actor. -/
theorem heeds_visited (rested : w.Rested) (traceable : w.Traceable) {visit : Visit K B}
    (hrun : Pass.lateUpdate.visited (SceneM.respond depth) e dt w = .ok visit w') :
    Heeds w w' e (w.Listening e) := by
  unfold Pass.visited at hrun
  obtain ⟨_, _, hget, hrun⟩ := bind_ok hrun
  cases hget
  cases hown : w.ownDelta? e dt with
  | none =>
    simp only [hown] at hrun
    cases hrun
    refine ⟨(Looked.refl w).hearing, fun listening => ?_, fun _ => rfl⟩
    obtain ⟨a, ha, takes⟩ := listening.updated
    simp [World.ownDelta?, ha, takes, listening.active] at hown
  | some own =>
    simp only [hown] at hrun
    obtain ⟨_, m, hannounce, hrun⟩ := bind_ok hrun
    cases hannounce
    obtain ⟨indices, _, hplaces, hrun⟩ := bind_ok hrun
    cases hplaces
    obtain ⟨looks, w₂, hlooks, hpure⟩ := bind_ok hrun
    cases hpure
    obtain ⟨a, ha, takes⟩ := Option.bind_eq_some_iff.1 hown
    split at takes
    · rename_i both
      obtain ⟨takes, active⟩ := Bool.and_eq_true_iff.1 both
      have place := traceable.placed e (by rw [ha, Option.isSome_some])
      have heeds := heeds_lookedAt rested place active hlooks
      have ears : (∃ index ∈ List.range (w.componentCount e), w.Ear e index) ↔ w.Listening e := by
        constructor
        · rintro ⟨index, -, ear⟩
          exact ⟨⟨a, ha, takes⟩, active, index, ear⟩
        · rintro ⟨-, -, index, slot, there, ear⟩
          exact ⟨index, List.mem_range.2 (lt_componentCount there), slot, there, ear⟩
      rwa [ears] at heeds
    · cases takes

/-- The pass reaches one actor after another: the scene is heard from the last one that listens. -/
theorem tuned_visitedAll {actors : List EntityId} {visits : List (Visit K B)}
    (sorted : actors.Pairwise fun a b => a.index < b.index) (rested : w.Rested)
    (traceable : w.Traceable)
    (hrun : Pass.lateUpdate.visitedAll (SceneM.respond depth) dt actors w = .ok visits w') :
    w.Hearing w' ∧
      ((∃ e ∈ actors, w.Listening e) → ∃ e, w.Listening e ∧ w'.Tuned e ∧
        ∀ other ∈ actors, w.Listening other → other.index ≤ e.index) ∧
      ((∀ e ∈ actors, ¬ w.Listening e) → w'.listener = w.listener) := by
  induction actors generalizing w visits with
  | nil =>
    cases hrun
    refine ⟨(Looked.refl _).hearing, fun ⟨_, member, _⟩ => ?_, fun _ => rfl⟩
    exact absurd member List.not_mem_nil
  | cons e rest ih =>
    unfold Pass.visitedAll at hrun
    obtain ⟨visit, w₁, hvisit, hrun⟩ := bind_ok hrun
    obtain ⟨visits, w₂, hvisits, hpure⟩ := bind_ok hrun
    cases hpure
    obtain ⟨after, sorted⟩ := List.pairwise_cons.1 sorted
    have first := heeds_visited rested traceable hvisit
    have hearing := first.hearing
    obtain ⟨later, last, same⟩ :=
      ih sorted (hearing.rested rested) (hearing.traceable traceable) hvisits
    simp only [hearing.listening] at last same
    refine ⟨hearing.trans later, fun some => ?_, fun none => ?_⟩
    · by_cases others : ∃ x ∈ rest, w.Listening x
      · obtain ⟨x, listening, tuned, greatest⟩ := last others
        refine ⟨x, listening, tuned, fun other member heard => ?_⟩
        rcases List.mem_cons.1 member with rfl | member
        · obtain ⟨y, inRest, heard'⟩ := others
          exact Nat.le_of_lt (Nat.lt_of_lt_of_le (after y inRest) (greatest y inRest heard'))
        · exact greatest other member heard
      · have nobody : ∀ x ∈ rest, ¬ w.Listening x := fun x member heard =>
          others ⟨x, member, heard⟩
        have here : w.Listening e := by
          obtain ⟨x, member, heard⟩ := some
          rcases List.mem_cons.1 member with rfl | member
          · exact heard
          · exact absurd heard (nobody x member)
        refine ⟨e, here, later.tuned (first.tuned here) (same nobody), fun other member heard => ?_⟩
        rcases List.mem_cons.1 member with rfl | member
        · exact Nat.le_refl _
        · exact absurd heard (nobody other member)
    · have nobody : ∀ x ∈ rest, ¬ w.Listening x := fun x member =>
        none x (List.mem_cons_of_mem _ member)
      exact (same nobody).trans (first.same (none e (List.mem_cons_self ..)))

end Pass

/-! ## The sweep -/

section Sweep

variable [Scalar K]

open World

/-- Who is taken out of the scene changes nothing for those that it does not stand above. -/
theorem World.Tuned.reclaim {w : World K B} {d e : EntityId} (h : w.Tuned e)
    (traceable : w.Traceable) (apart : d ∉ w.lineage e) : (w.reclaim d).Tuned e := by
  obtain ⟨m, q, known, rotation, listener⟩ := h
  have places := fun x member => traceable.transform?_reclaim apart (x := x) member
  refine ⟨m, q, ?_, ?_, ?_⟩
  · have matrix := congrArg (Option.bind · Transform.localToWorld)
      (places e (self_mem_lineage w e))
    simp only [Option.bind_map] at matrix
    exact matrix.trans known
  · have lineage := traceable.lineage_reclaim apart
    refine (worldRotation?_congr lineage fun x member => ?_).trans rotation
    have turned := congrArg (Option.map Transform.rotation) (places x member)
    rw [Option.map_map, Option.map_map] at turned
    exact turned
  · rw [World.reclaim, despawn_eq, (onlyPlaces_detach w d).rest]
    exact listener

variable [Behavior K B]
  (observers : ∀ event, (Behavior.observe event : Program K B Unit).Only Request.Looks)
include observers

/-- Observers that only look leave who is heard from as it is, and so do those who go. -/
theorem tuned_sweep {depth : Nat} {w w' : World K B} {e : EntityId} (h : w.Tuned e)
    (traceable : w.Traceable) (active : w.isActive e)
    (hrun : SceneM.sweep (SceneM.respond depth) w = .ok () w') : w'.Tuned e := by
  have reclaimed : ∀ (doomed : List (EntityId × String)) (w : World K B), w.Tuned e →
      w.Traceable → (∀ d ∈ doomed, d.1 ∉ w.lineage e) →
      doomed.forM (SceneM.reclaim (SceneM.respond depth)) w = .ok () w' → w'.Tuned e := by
    intro doomed
    induction doomed with
    | nil =>
      intro w h _ _ hrun
      cases hrun
      exact h
    | cons d rest ih =>
      intro w h traceable apart hrun
      obtain ⟨_, w₁, hreclaim, hrun⟩ := bind_ok hrun
      unfold SceneM.reclaim SceneM.emit at hreclaim
      obtain ⟨_, w₂, hemit, hreclaim⟩ := bind_ok hreclaim
      obtain ⟨_, w₃, hrecord, hrespond⟩ := bind_ok hemit
      cases hrecord
      cases hreclaim
      have looked : w.Looked w₂ := by
        cases depth with
        | zero => cases hrespond
        | succ depth =>
          have noted := Looked.record w (.actor (.destroyed d.1 d.2))
          exact noted.trans (looked_program (observers _) _ _ (.refl _) _ _ hrespond)
      have hearing := looked.hearing
      have here : d.1 ∉ w₂.lineage e := by
        rw [hearing.lineage]
        exact apart d (List.mem_cons_self ..)
      refine ih _ ((hearing.tuned h looked.listener).reclaim (hearing.traceable traceable) here)
        ((hearing.traceable traceable).reclaim d.1) (fun x member => ?_) hrun
      rw [(hearing.traceable traceable).lineage_reclaim here, hearing.lineage]
      exact apart x (List.mem_cons_of_mem _ member)
  unfold SceneM.sweep at hrun
  obtain ⟨_, _, hget, hrun⟩ := bind_ok hrun
  cases hget
  refine reclaimed _ w h traceable (fun d member above => ?_) hrun
  -- Whoever is above an active actor is not flagged for removal.
  obtain ⟨x, -, flagged⟩ := List.mem_filterMap.1 member
  cases found : w.actor? x with
  | none =>
    rw [found] at flagged
    cases flagged
  | some a =>
    simp only [found] at flagged
    split at flagged
    · rename_i destroyed
      cases flagged
      rw [(isActive_iff.1 active).2 x above a found] at destroyed
      cases destroyed
    · cases flagged

/-- After a frame of a scene whose components are movers and listeners, and whose observers only
look, the scene is heard from the last of the actors that were listening when the second pass began,
and from where it is now. -/
theorem last_listener_is_heard [IsEmpty B] {w w' : World K B}
    (h : Reachable (Scope.everything K B).fit w) {dt : K}
    (hrun : SceneM.frame dt w = .ok () w') :
    ∃ updates lates : Tour K B, SceneM.touredFrame dt w = .ok (updates, lates) w' ∧
      ((∃ e, lates.world.Listening e) → ∃ e, lates.world.Listening e ∧ w'.HearsFrom e ∧
        ∀ other, lates.world.Listening other → other.index ≤ e.index) := by
  have behaved : (Scope.everything K B).Behaved := Scope.behaved_everything
  have sent : ∀ dt : K, (Scope.everything K B).hooks (.update dt) ∧
      (Scope.everything K B).hooks (.lateUpdate dt) := fun _ => ⟨trivial, trivial⟩
  have performed : ∀ request : Request K B,
      Keeps ((Scope.everything K B).Led ⟨[], w⟩ []) (SceneM.perform request) := fun request =>
    Scope.led_perform (Scope.fitScheduler_everything w) behaved SceneM.hookLimit
      (Scope.permits trivial) []
  rw [SceneM.frame_eq_touredFrame] at hrun
  obtain ⟨⟨updates, lates⟩, htoured, -⟩ := map_ok hrun
  refine ⟨updates, lates, htoured, fun ⟨listener, listening⟩ => ?_⟩
  unfold SceneM.touredFrame at htoured
  obtain ⟨_, w₁, hticked, htoured⟩ := bind_ok htoured
  obtain ⟨_, w₂, hcommanded, htoured⟩ := bind_ok htoured
  obtain ⟨_, w₃, hthreads, htoured⟩ := bind_ok htoured
  obtain ⟨_, w₄, hupdates, htoured⟩ := bind_ok htoured
  obtain ⟨_, w₅, hlates, htoured⟩ := bind_ok htoured
  obtain ⟨_, w₆, hswept, hpure⟩ := bind_ok htoured
  cases hpure
  have updated : SceneM.perform .updateActors w₃ = .ok () w₄ := by
    change Pass.update.run (SceneM.respond SceneM.hookLimit) w₃ = _
    rw [Pass.run_eq]
    exact map_of_ok hupdates
  have ticked := performed _ w .refl _ _ hticked
  have commanded := performed _ w₁ ticked _ _ hcommanded
  have threads := performed _ w₂ commanded _ _ hthreads
  have leads := (performed _ w₃ threads _ _ updated).leads
  -- What holds of all scenes holds when the second pass begins.
  have rested : w₄.Rested := (leads.keeps Change.inService (.rested h.rested)).world_rested
  have listed : w₄.Listed := leads.keeps (I := fun y => y.world.Listed) Change.listed
    (h.listed behaved sent)
  have traceable : w₄.Traceable := leads.keeps (I := fun y => y.world.Traceable) Change.traceable
    (h.traceable behaved sent)
  have known : ∀ e, w₄.Listening e → e ∈ w₄.actors := by
    intro e listening
    obtain ⟨a, ha, -⟩ := listening.updated
    exact listed.listed e (by rw [ha, Option.isSome_some])
  unfold Pass.toured at hlates
  obtain ⟨_, _, hget, hlates⟩ := bind_ok hlates
  cases hget
  obtain ⟨visits, v, hvisits, hpure⟩ := bind_ok hlates
  cases hpure
  obtain ⟨hearing, last, -⟩ := tuned_visitedAll listed.sorted rested traceable hvisits
  obtain ⟨e, here, tuned, greatest⟩ := last ⟨listener, known listener listening, listening⟩
  have active := (hearing.isActive e).trans here.active
  have stays := tuned_sweep observers tuned (hearing.traceable traceable) active hswept
  exact ⟨e, here, stays.hearsFrom, fun other heard => greatest other (known other heard) heard⟩

end Sweep

/-! ## Three listeners -/

/-- Two actors that listen, the second one under the first one, which moves, and a third one that
goes with the frame. -/
def audience : Program Float32 Empty Unit := do
  let a ← Program.edit (.spawn (.named "a"))
  let b ← Program.edit (.spawn { ActorSpec.named "b" with parent := some a })
  let c ← Program.edit (.spawn (.named "c"))
  let _ ← Program.edit (.add a (.mover (.start ⟨3, 0, 0⟩ 8 .linear none)))
  let _ ← Program.edit (.add a .listener)
  let _ ← Program.edit (.add b .listener)
  let _ ← Program.edit (.add c .listener)
  Program.edit (.destroy c)

/-- The scene is heard from the second one. -/
theorem last_listener_is_heard_audience :
    ∃ w w' : World Float32 Empty, Reachable (Scope.everything Float32 Empty).fit w ∧
      SceneM.frame 1 w = .ok () w' ∧ w'.HearsFrom ⟨1⟩ ∧
      w.actors = [⟨0⟩, ⟨1⟩, ⟨2⟩] ∧ w'.actors = [⟨0⟩, ⟨1⟩] := by
  have run : audience.passes .bare fun _ w => decide (w.actors = [⟨0⟩, ⟨1⟩, ⟨2⟩]) &&
      passes (SceneM.touredFrame 1) w fun tours w' =>
        decide (w'.actors = [⟨0⟩, ⟨1⟩]) &&
        decide ((w'.listener.bind fun pose => pose.actor) = some ⟨1⟩) &&
        ((tours.2.world.actor? ⟨1⟩).any fun a => a.updateEnabled) && tours.2.world.isActive ⟨1⟩ &&
        (tours.2.world.slot? ⟨1⟩ 0).any fun slot => slot.enabled &&
          decide (slot.component.map Component.kind = some .listener) := by
    decide +kernel
  obtain ⟨_, w, hrun, checked⟩ := Program.exists_of_passes run
  simp only [Bool.and_eq_true, decide_eq_true_eq] at checked
  obtain ⟨actors, frame⟩ := checked
  obtain ⟨⟨updates, lates⟩, w', htoured, checked⟩ := exists_of_passes frame
  simp only [Bool.and_eq_true, decide_eq_true_eq, Option.any_eq_true] at checked
  obtain ⟨⟨⟨⟨remaining, heard⟩, takes⟩, active⟩, slot, there, enabled, listener⟩ := checked
  have h : Reachable (Scope.everything Float32 Empty).fit w :=
    .step (.empty rfl rfl rfl rfl) (.program (Scope.fit_everything audience) hrun)
  have hframe : SceneM.frame 1 w = .ok () w' := by
    rw [SceneM.frame_eq_touredFrame]
    exact map_of_ok htoured
  have present : slot.component = some .listener := by
    obtain ⟨component, hcomponent, kind⟩ := Option.map_eq_some_iff.1 listener
    cases component with
    | listener => exact hcomponent
    | mover | custom => cases kind
  have listening : lates.world.Listening ⟨1⟩ :=
    ⟨takes, active, 0, slot, there, enabled, present⟩
  have observers : ∀ event : ActorEvent Float32,
      (Behavior.observe event : Program Float32 Empty Unit).Only Request.Looks := fun _ => trivial
  obtain ⟨updates', lates', htoured', last⟩ := last_listener_is_heard observers h hframe
  cases htoured.symm.trans htoured'
  obtain ⟨e, -, hears, -⟩ := last ⟨_, listening⟩
  obtain ⟨position, rotation, published, -⟩ := id hears
  rw [published] at heard
  cases heard
  exact ⟨w, w', h, hframe, hears, actors, remaining⟩

end SheepScene
