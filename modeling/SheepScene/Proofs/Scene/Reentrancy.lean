import SheepScene.Proofs.Scene.Changes
import Mathlib.Data.List.Induction

/-!
# Hooks that are asked for while a component acts

A component that acts on a hook is out of its slot, and hooks for it are put off. The stages that
the journal has of one component therefore follow a simple pattern (`Served`): it begins to act on a
hook when it is at rest or when the hook is the oldest of those put off, hooks are put off only
while it acts, and it acts on one hook at a time. The pattern is carried through all changes of a
scene by what the slots and the components that are acting have to do with it (`Attended`).

So scenes are at rest whenever no component is acting (`World.Rested`), and what was put off has
been acted on by then, in order (`reentrant_hooks_are_served`).
-/

set_option autoImplicit false

namespace SheepScene

variable {K B : Type}

/-! ## The stages of one component -/

/-- The stages at a place. -/
def stagesAt (x : EntityId × Nat) (stages : List (Stage K)) : List (HookStage × Hook K) :=
  (stages.filter fun s => (s.actor, s.index) = x).map fun s => (s.stage, s.hook)

/-- The stages of a component in one stretch after another. -/
theorem stagesAt_append (x : EntityId × Nat) (l l' : List (Stage K)) :
    stagesAt x (l ++ l') = stagesAt x l ++ stagesAt x l' := by
  simp [stagesAt]

/-- A stage at a place is one of the component there. -/
theorem stagesAt_here (e : EntityId) (index : Nat) (stage : HookStage) (hook : Hook K) :
    stagesAt (e, index) [⟨e, index, stage, hook⟩] = [(stage, hook)] := by
  simp [stagesAt]

/-- A stage at a place is none of any other component. -/
theorem stagesAt_elsewhere {x : EntityId × Nat} {e : EntityId} {index : Nat} (h : x ≠ (e, index))
    (stage : HookStage) (hook : Hook K) : stagesAt x [⟨e, index, stage, hook⟩] = [] := by
  simp [stagesAt, Ne.symm h]

/-- What a component is at: the hook that it acts on, if it does, and the hooks that have been put
off since, oldest first. -/
structure Service (K : Type) where
  acting : Option (Hook K)
  waiting : List (Hook K)

/-- The stages of a component from a moment of rest on, the hooks that had been put off and on which
it has begun to act, and what it is at. -/
inductive Served : List (HookStage × Hook K) → List (Hook K) → Service K → Prop where
  | rest : Served [] [] ⟨none, []⟩
  /-- At rest, it begins to act on any hook. -/
  | first {l served} (hook : Hook K) : Served l served ⟨none, []⟩ →
      Served (l ++ [(.began, hook)]) served ⟨some hook, []⟩
  /-- Not at rest, it begins to act on the oldest of the hooks that were put off. -/
  | next {l served hook waiting} : Served l served ⟨none, hook :: waiting⟩ →
      Served (l ++ [(.began, hook)]) (served ++ [hook]) ⟨some hook, waiting⟩
  /-- While it acts, hooks are put off. -/
  | putOff {l served acting waiting} (hook : Hook K) : Served l served ⟨some acting, waiting⟩ →
      Served (l ++ [(.deferred, hook)]) served ⟨some acting, waiting ++ [hook]⟩
  | finish {l served hook waiting} : Served l served ⟨some hook, waiting⟩ →
      Served (l ++ [(.ended, hook)]) served ⟨none, waiting⟩

/-- The hooks that were put off. -/
def putOffs (l : List (HookStage × Hook K)) : List (Hook K) :=
  (l.filter fun s => s.1 = .deferred).map (·.2)

/-- How often a component has reached a stage. -/
def reached (stage : HookStage) (l : List (HookStage × Hook K)) : Nat :=
  l.countP fun s => s.1 = stage

namespace Served

variable {l : List (HookStage × Hook K)} {served : List (Hook K)} {s : Service K}

/-- The hooks that were put off are those on which the component has begun to act, and then those
that still wait. -/
theorem putOffs_eq (h : Served l served s) : putOffs l = served ++ s.waiting := by
  induction h with
  | rest => rfl
  | first hook _ ih | finish _ ih => simpa [putOffs] using ih
  | next _ ih => simpa [putOffs] using ih
  | putOff hook _ ih =>
    simp only [putOffs, List.filter_append, List.map_append] at ih ⊢
    simp [ih]

/-- A component has come to an end as often as it has begun, but for the hook on which it acts. -/
theorem reached_eq (h : Served l served s) :
    reached .began l = reached .ended l + if s.acting.isSome then 1 else 0 := by
  induction h with
  | rest => rfl
  | first hook _ ih | next _ ih | putOff hook _ ih | finish _ ih =>
    simpa [reached, List.countP_append] using ih

/-- What came before a moment follows the pattern as well. -/
theorem before {m : List (HookStage × Hook K)} (h : Served (l ++ m) served s) :
    ∃ served' s', Served l served' s' := by
  induction m using List.reverseRecOn generalizing served s with
  | nil =>
    rw [List.append_nil] at h
    exact ⟨served, s, h⟩
  | append_singleton m x ih =>
    rw [← List.append_assoc] at h
    generalize hl : l ++ m ++ [x] = l' at h
    cases h with
    | rest => simp at hl
    | first hook h | next h | putOff hook h | finish h =>
      rw [List.append_inj_left' hl rfl] at ih
      exact ih h

/-- When a component begins to act on a hook, it has come to an end with all others. -/
theorem apart {hook : Hook K} {m : List (HookStage × Hook K)}
    (h : Served (l ++ (.began, hook) :: m) served s) : reached .began l = reached .ended l := by
  rw [← List.singleton_append, ← List.append_assoc] at h
  obtain ⟨served', s', begun⟩ := h.before
  generalize hl : l ++ [(HookStage.began, hook)] = l' at begun
  cases begun with
  | rest => simp at hl
  | first _ h | next h =>
    obtain rfl := List.append_inj_left' hl rfl
    simpa using h.reached_eq
  | putOff _ h | finish h =>
    have last := List.append_inj_right' hl rfl
    simp at last

end Served

/-! ## Slots that are left alone -/

namespace World

/-- A world in which every component is in its slot and no hook waits. -/
def Rested (w : World K B) : Prop :=
  ∀ (x : EntityId × Nat) slot, w.slot? x.1 x.2 = some slot →
    slot.component.isSome ∧ slot.deferred = []

/-- Changes that neither take components out of their slots or put them back nor put hooks off.
Components may come with their slots and go with their actors. -/
structure Undisturbed (w w' : World K B) : Prop where
  precedes : w.Precedes w'
  slot : ∀ (x : EntityId × Nat) slot', w'.slot? x.1 x.2 = some slot' →
    (∃ slot, w.slot? x.1 x.2 = some slot ∧ slot'.component.isSome = slot.component.isSome ∧
      slot'.deferred = slot.deferred) ∨
    w.slot? x.1 x.2 = none ∧ slot'.component.isSome ∧ slot'.deferred = []

namespace Undisturbed

variable {w w' w₁ : World K B}

/-- Changes that leave the slots alone disturb none. -/
theorem of_slots (precedes : w.Precedes w') (slots : ∀ e, w'.slots? e = w.slots? e) :
    Undisturbed w w' := by
  refine ⟨precedes, fun x slot' h => .inl ⟨slot', ?_, rfl, rfl⟩⟩
  rwa [slot?, slots] at h

/-- Changes that leave slots and waits alone disturb no slot. -/
theorem of_sameSlots (precedes : w.Precedes w') (same : SameSlots w w') : Undisturbed w w' :=
  of_slots precedes same.slots

/-- Changes that are not about entities disturb no slot. -/
theorem of_entities (entities : w'.entities = w.entities) : Undisturbed w w' := by
  refine of_slots (.of_entities entities) fun e => ?_
  unfold slots? entity?
  rw [entities]

/-- Changing a slot without touching what is in it. -/
theorem modifySlot (w : World K B) (e : EntityId) (index : Nat) {f : Slot K B → Slot K B}
    (component : ∀ slot, w.slot? e index = some slot →
      (f slot).component.isSome = slot.component.isSome)
    (deferred : ∀ slot, (f slot).deferred = slot.deferred) :
    Undisturbed w (w.modifySlot e index f) := by
  refine ⟨.modifySlot w e index f, fun x slot' h => .inl ?_⟩
  rw [slot?_modifySlot] at h
  split at h
  · rename_i here
    subst here
    obtain ⟨slot, hslot, rfl⟩ := Option.map_eq_some_iff.1 h
    exact ⟨slot, hslot, component slot hslot, deferred slot⟩
  · exact ⟨slot', h, rfl, rfl⟩

/-- Creating an entity without components disturbs no slot. -/
theorem create {entity : Entity K B} (empty : ∀ slots, entity.slots = some slots → slots = #[])
    (entities : w'.entities = (w.create entity).2.entities) : Undisturbed w w' := by
  refine ⟨(Precedes.create w entity).trans (.of_entities entities),
    fun x slot' h => .inl ⟨slot', ?_, rfl, rfl⟩⟩
  have created : (w.create entity).2.slot? x.1 x.2 = some slot' := by
    unfold slot? slots? entity? at h ⊢
    rwa [entities] at h
  rw [slot?, slots?, entity?_create] at created
  split at created
  · obtain ⟨slots, hslots, hindex⟩ := Option.bind_eq_some_iff.1 created
    rw [empty slots hslots] at hindex
    simp at hindex
  · exact created

/-- Spawning an actor disturbs no slot. -/
theorem spawn (w : World K B) (spec : ActorSpec K) : Undisturbed w (w.spawn spec).2 := by
  refine ⟨.spawn w spec, fun x slot' h => ?_⟩
  unfold World.spawn at h
  dsimp only at h
  split at h
  · rw [slot?, (onlyPlaces_setParent _ _ _).slots?] at h
    exact (create (fun slots hslots => by cases hslots; rfl) rfl).slot x slot' h
  · exact (create (fun slots hslots => by cases hslots; rfl) rfl).slot x slot' h

/-- Despawning disturbs no slot. -/
theorem despawn (w : World K B) (e : EntityId) : Undisturbed w (w.despawn e).2 := by
  refine ⟨.despawn w e, fun x slot' h => .inl ⟨slot', ?_, rfl, rfl⟩⟩
  rw [slot?, slots?, entity?_despawn] at h
  split at h
  · cases h
  · exact h

/-- Reclaiming disturbs no slot. -/
theorem reclaim (w : World K B) (e : EntityId) : Undisturbed w (w.reclaim e) := by
  refine ⟨.reclaim w e, fun x slot' h => .inl ⟨slot', ?_, rfl, rfl⟩⟩
  rw [slot?, slots?, entity?_reclaim] at h
  split at h
  · cases h
  · change (w.detach e).slot? x.1 x.2 = some slot' at h
    rwa [slot?, (onlyPlaces_detach w e).slots?] at h

variable [Scalar K] [Behavior K B]

/-- No edit of a program disturbs a slot. -/
theorem apply (w : World K B) (x : Edit K B) : Undisturbed w (w.apply x).2 := by
  have precedes := precedes_apply w x
  cases x with
  | spawn spec => exact spawn w spec
  | spawnTransform | spawnBare => exact create (fun slots h => by cases h) rfl
  | despawn e => exact despawn w e
  | add e component =>
    change Undisturbed w (w.addComponent e component).2
    unfold addComponent
    split
    · rename_i slots hslots
      refine ⟨.modifySlots fun slots => Nat.le_of_succ_le (Nat.le_of_eq (Array.size_push _).symm),
        fun x slot' h => ?_⟩
      rw [slot?_push hslots] at h
      split at h
      · rename_i here
        cases h
        subst here
        exact .inr ⟨by simp [slot?, hslots], rfl, rfl⟩
      · exact .inl ⟨slot', h, rfl, rfl⟩
    · exact of_entities (by rw [dropComponent_eq]; rfl)
  | retarget e target duration done =>
    change Undisturbed w (w.retarget e target duration done).2
    rcases w.retarget_cases e target duration done with same | ⟨index, m, -, hcell, moved⟩
    · rw [same]
      exact of_entities rfl
    · rw [moved]
      refine ⟨(Precedes.dropComponent w _).trans (.modifySlot _ e index _), fun x slot' h => ?_⟩
      rw [slot?_modifySlot, dropComponent_eq] at h
      split at h
      · rename_i here
        subst here
        obtain ⟨slot, hslot, rfl⟩ := Option.map_eq_some_iff.1 h
        obtain ⟨before, hbefore, hcomponent⟩ := Option.map_eq_some_iff.1 hcell
        cases hslot.symm.trans hbefore
        exact .inl ⟨slot, hslot, by rw [hcomponent]; rfl, rfl⟩
      · exact .inl ⟨slot', h, rfl, rfl⟩
  | issueWait => exact of_entities rfl
  | _ =>
    refine of_sameSlots precedes (SameSlots.apply w ?_)
    trivial

end Undisturbed

end World

/-! ## What slots and components that act have to do with it -/

/-- The component at a place is at what the slot and the components that act say. -/
structure Attended (y : Instant K B) (x : EntityId × Nat) (s : Service K) : Prop where
  acting : ∀ hook, ⟨x.1, x.2, hook⟩ ∈ y.acting ↔ s.acting = some hook
  slot : ∀ slot, y.world.slot? x.1 x.2 = some slot →
    slot.component.isNone = s.acting.isSome ∧ slot.deferred = s.waiting
  rest : (y.world.slot? x.1 x.2).isSome → s.acting = none → s.waiting = []
  /-- Where there is no slot, either nothing was ever asked for or the actor has gone. -/
  gone : y.world.slot? x.1 x.2 = none → s.acting = none ∧ s.waiting = [] ∨
    x.1.index < y.world.entities.size ∧ y.world.entity? x.1 = none

namespace Attended

variable {acting : List (Acting K)} {w w' : World K B} {x : EntityId × Nat} {s : Service K}

/-- In a scene at rest every component is at rest. -/
theorem rested (h : w.Rested) (x : EntityId × Nat) : Attended ⟨[], w⟩ x ⟨none, []⟩ where
  acting hook := by simp
  slot slot hslot := by
    obtain ⟨component, deferred⟩ := h x slot hslot
    exact ⟨by simpa using component, deferred⟩
  rest _ _ := rfl
  gone _ := .inl ⟨rfl, rfl⟩

/-- A slot that is there was there before or is new, and an actor that has gone stays away. -/
theorem undisturbed (h : Attended ⟨acting, w⟩ x s) (undisturbed : w.Undisturbed w') :
    Attended ⟨acting, w'⟩ x s := by
  have precedes := undisturbed.precedes
  have still : x.1.index < w.entities.size → w.entity? x.1 = none →
      x.1.index < w'.entities.size ∧ w'.entity? x.1 = none := fun known gone =>
    ⟨Nat.lt_of_lt_of_le known precedes.size, precedes.gone known gone⟩
  have fresh : w.slot? x.1 x.2 = none → (w'.slot? x.1 x.2).isSome →
      s.acting = none ∧ s.waiting = [] := by
    intro hnone there
    rcases h.gone hnone with idle | ⟨known, gone⟩
    · exact idle
    · rw [World.slot?, World.slots?, (still known gone).2] at there
      cases there
  refine ⟨h.acting, fun slot' hslot' => ?_, fun there hacting => ?_, fun hnone' => ?_⟩
  · rcases undisturbed.slot x slot' hslot' with ⟨slot, hslot, component, deferred⟩ |
      ⟨hnone, component, deferred⟩
    · obtain ⟨out, waiting⟩ := h.slot slot hslot
      exact ⟨by simpa [← Option.not_isSome, component] using out, deferred.trans waiting⟩
    · obtain ⟨acting, waiting⟩ := fresh hnone (by rw [hslot', Option.isSome_some])
      rw [acting, waiting]
      exact ⟨by simpa using component, deferred⟩
  · cases hslot : w.slot? x.1 x.2 with
    | none => exact (fresh hslot there).2
    | some slot => exact h.rest (by rw [hslot, Option.isSome_some]) hacting
  · cases hslot : w.slot? x.1 x.2 with
    | none =>
      rcases h.gone hslot with idle | ⟨known, gone⟩
      · exact .inl idle
      · exact .inr (still known gone)
    | some slot =>
      refine .inr ⟨Nat.lt_of_lt_of_le (World.index_lt_of_slot? hslot) precedes.size, ?_⟩
      by_contra there
      have kept : (w'.slot? x.1 x.2).isSome := by
        refine precedes.slot?_isSome (Option.isSome_iff_ne_none.2 there) ?_
        rw [hslot, Option.isSome_some]
      rw [hnone'] at kept
      cases kept

/-- A note in the journal takes no component to anything else. -/
theorem record (h : Attended ⟨acting, w⟩ x s) (event : Event K B) :
    Attended ⟨acting, w.record event⟩ x s :=
  h.undisturbed (.of_entities rfl)

/-- What happens at another place. -/
theorem elsewhere {acting' : List (Acting K)} {e : EntityId} {index : Nat}
    {f : Slot K B → Slot K B} (h : Attended ⟨acting, w⟩ x s) (other : x ≠ (e, index))
    (same : ∀ hook, (⟨x.1, x.2, hook⟩ : Acting K) ∈ acting' ↔ ⟨x.1, x.2, hook⟩ ∈ acting) :
    Attended ⟨acting', w.modifySlot e index f⟩ x s := by
  have slot : (w.modifySlot e index f).slot? x.1 x.2 = w.slot? x.1 x.2 := by
    rw [World.slot?_modifySlot, if_neg other]
  have entity : (w.modifySlot e index f).entity? x.1 = none ↔ w.entity? x.1 = none := by
    unfold World.modifySlot World.modifySlots
    rw [World.entity?_modifyEntity]
    split
    · exact Option.map_eq_none_iff
    · exact .rfl
  have size : (w.modifySlot e index f).entities.size = w.entities.size := Array.size_modify
  refine ⟨fun hook => (same hook).trans (h.acting hook), ?_, ?_, ?_⟩
  · intro found hfound
    exact h.slot found (slot ▸ hfound)
  · intro there
    exact h.rest (slot ▸ there)
  · intro hnone
    rcases h.gone (slot ▸ hnone) with idle | ⟨known, gone⟩
    · exact .inl idle
    · exact .inr ⟨size ▸ known, entity.2 gone⟩

/-- What happens to the slot itself. -/
theorem here {e : EntityId} {index : Nat} {f : Slot K B → Slot K B} {slot : Slot K B}
    (hslot : w.slot? e index = some slot)
    (hacting : ∀ hook, (⟨e, index, hook⟩ : Acting K) ∈ acting ↔ s.acting = some hook)
    (out : (f slot).component.isNone = s.acting.isSome) (waiting : (f slot).deferred = s.waiting)
    (rest : s.acting = none → s.waiting = []) :
    Attended ⟨acting, w.modifySlot e index f⟩ (e, index) s := by
  have found : (w.modifySlot e index f).slot? e index = some (f slot) := by
    have changed := World.slot?_modifySlot w e index f (e, index)
    rw [if_pos rfl, hslot] at changed
    exact changed
  refine ⟨hacting, fun slot' hslot' => ?_, fun _ => rest, fun hnone => ?_⟩
  · cases found.symm.trans hslot'
    exact ⟨out, waiting⟩
  · cases found.symm.trans hnone

end Attended

/-- A component that acts is the only one at its place. -/
theorem mem_cons_here {acting : List (Acting K)} {e : EntityId} {index : Nat}
    (free : (e, index) ∉ acting.map Acting.place) (hook hook' : Hook K) :
    (⟨e, index, hook'⟩ : Acting K) ∈ ⟨e, index, hook⟩ :: acting ↔ some hook = some hook' := by
  rw [List.mem_cons, Acting.mk.injEq, Option.some.injEq]
  refine ⟨fun h => ?_, fun h => .inl ⟨rfl, rfl, h.symm⟩⟩
  rcases h with ⟨-, -, same⟩ | others
  · exact same.symm
  · exact absurd (List.mem_map_of_mem (f := Acting.place) others) free

/-- Elsewhere the same components act when one more acts. -/
theorem mem_cons_elsewhere {x : EntityId × Nat} {e : EntityId} {index : Nat} (hx : x ≠ (e, index))
    (hook : Hook K) (acting : List (Acting K)) (hook' : Hook K) :
    (⟨x.1, x.2, hook'⟩ : Acting K) ∈ ⟨e, index, hook⟩ :: acting ↔ ⟨x.1, x.2, hook'⟩ ∈ acting := by
  rw [List.mem_cons, Acting.mk.injEq]
  exact or_iff_right fun same => hx (Prod.ext same.1 same.2.1)

/-- The hooks of all components are served in order, since the journal had the given stages. -/
structure InService (base : List (Stage K)) (y : Instant K B) : Prop where
  /-- No component acts inside itself. -/
  nodup : (y.acting.map Acting.place).Nodup
  stages : ∃ new, y.world.stages = base ++ new ∧
    ∀ x, ∃ served s, Served (stagesAt x new) served s ∧ Attended y x s

namespace InService

variable {base : List (Stage K)} {acting acting' : List (Acting K)} {w w' : World K B}

/-- In a scene at rest all have been served. -/
theorem rested (h : w.Rested) : InService w.stages ⟨[], w⟩ where
  nodup := List.nodup_nil
  stages := ⟨[], (List.append_nil _).symm, fun x => ⟨[], _, .rest, .rested h x⟩⟩

/-- Changes that disturb no slot leave it at that. -/
theorem undisturbed (h : InService base ⟨acting, w⟩) (stages : w'.stages = w.stages)
    (undisturbed : w.Undisturbed w') : InService base ⟨acting, w'⟩ := by
  obtain ⟨new, hnew, places⟩ := h.stages
  refine ⟨h.nodup, new, stages.trans hnew, fun x => ?_⟩
  obtain ⟨served, s, log, attended⟩ := places x
  exact ⟨served, s, log, attended.undisturbed undisturbed⟩

/-- A change that concerns one component only. -/
theorem change (h : InService base ⟨acting, w⟩) (e : EntityId) (index : Nat)
    (nodup : (acting'.map Acting.place).Nodup) {added : List (Stage K)}
    (stages : w'.stages = w.stages ++ added)
    (only : ∀ x, x ≠ (e, index) → stagesAt x added = [])
    (elsewhere : ∀ x s, x ≠ (e, index) → Attended ⟨acting, w⟩ x s → Attended ⟨acting', w'⟩ x s)
    (here : ∀ l served s, Served l served s → Attended ⟨acting, w⟩ (e, index) s →
      ∃ served s, Served (l ++ stagesAt (e, index) added) served s ∧
        Attended ⟨acting', w'⟩ (e, index) s) : InService base ⟨acting', w'⟩ := by
  obtain ⟨new, hnew, places⟩ := h.stages
  refine ⟨nodup, new ++ added, ?_, fun x => ?_⟩
  · change w'.stages = _
    rw [stages, ← List.append_assoc]
    exact congrArg (· ++ added) hnew
  · obtain ⟨served, s, log, attended⟩ := places x
    rw [stagesAt_append]
    by_cases hx : x = (e, index)
    · subst hx
      exact here _ _ _ log attended
    · rw [only x hx, List.append_nil]
      exact ⟨served, s, log, elsewhere x s hx attended⟩

variable {e : EntityId} {index : Nat} {slot : Slot K B}

/-- A hook is put off. -/
theorem putOff (h : InService base ⟨acting, w⟩) (hslot : w.slot? e index = some slot)
    (out : slot.component = none) (hook : Hook K) :
    InService base ⟨acting, (w.modifySlot e index fun slot =>
      { slot with deferred := slot.deferred ++ [hook] }).record
        (.hook e index .deferred hook)⟩ := by
  refine h.change e index h.nodup (World.stages_record_hook _ e index .deferred hook)
    (fun x hx => stagesAt_elsewhere hx _ _) (fun x s hx attended => ?_)
    fun l served s log attended => ?_
  · exact (attended.elsewhere hx fun _ => .rfl).record _
  · obtain ⟨acts, waits⟩ := attended.slot slot hslot
    obtain ⟨act, waiting⟩ := s
    obtain ⟨current, rfl⟩ : ∃ current, act = some current := by
      rw [out] at acts
      exact Option.isSome_iff_exists.1 acts.symm
    rw [stagesAt_here]
    refine ⟨served, _, .putOff hook log, Attended.record ?_ _⟩
    refine .here hslot attended.acting acts ?_ nofun
    exact congrArg (· ++ [hook]) waits

/-- A component leaves its slot. It was not acting, and nothing was waiting for it. -/
theorem start {component : Component K B} (h : InService base ⟨acting, w⟩)
    (hslot : w.slot? e index = some slot) (hcomponent : slot.component = some component)
    (hook : Hook K) :
    InService base ⟨⟨e, index, hook⟩ :: acting, (w.modifySlot e index fun slot =>
      { slot with component := none }).record (.hook e index .began hook)⟩ := by
  have idle : ∀ s, Attended ⟨acting, w⟩ (e, index) s → s = ⟨none, []⟩ ∧ slot.deferred = [] := by
    intro s attended
    obtain ⟨acts, waits⟩ := attended.slot slot hslot
    obtain ⟨act, waiting⟩ := s
    obtain rfl : act = none := by
      rw [hcomponent] at acts
      exact Option.not_isSome_iff_eq_none.1 (by simp [← acts])
    obtain rfl : waiting = [] := attended.rest (by rw [hslot, Option.isSome_some]) rfl
    exact ⟨rfl, waits⟩
  have free : (e, index) ∉ acting.map Acting.place := by
    obtain ⟨new, -, places⟩ := h.stages
    obtain ⟨-, s, -, attended⟩ := places (e, index)
    rw [List.mem_map]
    rintro ⟨⟨e', index', hook'⟩, hmem, hplace⟩
    cases hplace
    have acts := (attended.acting hook').1 hmem
    rw [(idle s attended).1] at acts
    cases acts
  refine h.change e index (List.nodup_cons.2 ⟨free, h.nodup⟩)
    (World.stages_record_hook _ e index .began hook)
    (fun x hx => stagesAt_elsewhere hx _ _) (fun x s hx attended => ?_)
    fun l served s log attended => ?_
  · exact (attended.elsewhere hx (mem_cons_elsewhere hx hook acting)).record _
  · obtain ⟨rfl, nothing⟩ := idle s attended
    rw [stagesAt_here]
    refine ⟨served, _, .first hook log, Attended.record ?_ _⟩
    refine .here hslot (mem_cons_here free hook) rfl nothing nofun

/-- A component goes on with the oldest hook that was put off. -/
theorem resume {hook next : Hook K} {deferred : List (Hook K)}
    (h : InService base ⟨⟨e, index, hook⟩ :: acting, w⟩) (hslot : w.slot? e index = some slot)
    (hdeferred : slot.deferred = next :: deferred) :
    InService base ⟨⟨e, index, next⟩ :: acting,
      ((w.record (.hook e index .ended hook)).modifySlot e index fun slot =>
        { slot with deferred }).record (.hook e index .began next)⟩ := by
  have free := (List.nodup_cons.1 h.nodup).1
  have acts := mem_cons_here free
  have written := World.stages_resume w e index hook next fun slot => { slot with deferred }
  rw [← List.singleton_append] at written
  refine h.change e index h.nodup written (fun x hx => ?_) (fun x s hx attended => ?_)
    fun l served s log attended => ?_
  · rw [stagesAt_append, stagesAt_elsewhere hx, stagesAt_elsewhere hx]
    rfl
  · have same : ∀ hook', (⟨x.1, x.2, hook'⟩ : Acting K) ∈ ⟨e, index, next⟩ :: acting ↔
        ⟨x.1, x.2, hook'⟩ ∈ ⟨e, index, hook⟩ :: acting := fun hook' =>
      (mem_cons_elsewhere hx next acting hook').trans (mem_cons_elsewhere hx hook acting hook').symm
    exact ((attended.record _).elsewhere hx same).record _
  · obtain ⟨out, waits⟩ := attended.slot slot hslot
    obtain ⟨act, waiting⟩ := s
    obtain rfl : act = some hook := (attended.acting hook).1 (List.mem_cons_self ..)
    obtain rfl : next :: deferred = waiting := hdeferred.symm.trans waits
    rw [stagesAt_append, stagesAt_here, stagesAt_here, ← List.append_assoc]
    refine ⟨_, _, .next (.finish log), Attended.record ?_ _⟩
    exact .here hslot (acts next) out rfl nofun

/-- A component goes back into its slot. -/
theorem finish {hook : Hook K} (h : InService base ⟨⟨e, index, hook⟩ :: acting, w⟩)
    (component : Component K B) (hslot : w.slot? e index = some slot)
    (nothing : slot.deferred = []) :
    InService base ⟨acting, (w.record (.hook e index .ended hook)).modifySlot e index fun slot =>
      { slot with component := some component }⟩ := by
  obtain ⟨free, nodup⟩ := List.nodup_cons.1 h.nodup
  refine h.change e index nodup (World.stages_record_hook w e index .ended hook)
    (fun x hx => stagesAt_elsewhere hx _ _) (fun x s hx attended => ?_)
    fun l served s log attended => ?_
  · refine (attended.record _).elsewhere hx fun hook' => ?_
    exact (mem_cons_elsewhere hx hook acting hook').symm
  · obtain ⟨-, waits⟩ := attended.slot slot hslot
    obtain ⟨act, waiting⟩ := s
    obtain rfl : act = some hook := (attended.acting hook).1 (List.mem_cons_self ..)
    obtain rfl : [] = waiting := nothing.symm.trans waits
    rw [stagesAt_here]
    refine ⟨served, _, .finish log, .here hslot (fun hook' => ?_) rfl nothing fun _ => rfl⟩
    refine ⟨fun hmem => absurd (List.mem_map_of_mem (f := Acting.place) hmem) free, nofun⟩

/-- A component comes to an end after its actor has gone; what was put off goes with it. -/
theorem vanish {hook : Hook K} (h : InService base ⟨⟨e, index, hook⟩ :: acting, w⟩)
    (component : Component K B) (hslot : w.slot? e index = none) :
    InService base ⟨acting, (w.record (.hook e index .ended hook)).dropComponent component⟩ := by
  obtain ⟨free, nodup⟩ := List.nodup_cons.1 h.nodup
  have entities : ((w.record (.hook e index .ended hook)).dropComponent component).entities
      = w.entities := by
    rw [World.dropComponent_eq]
    rfl
  have left : w.Undisturbed ((w.record (.hook e index .ended hook)).dropComponent component) :=
    .of_entities entities
  have written := (World.stages_dropComponent (w.record (.hook e index .ended hook))
    component).trans (World.stages_record_hook w e index .ended hook)
  refine h.change e index nodup written
    (fun x hx => stagesAt_elsewhere hx _ _) (fun x s hx attended => ?_)
    fun l served s log attended => ?_
  · have moved := attended.undisturbed left
    refine ⟨fun hook' => ?_, moved.slot, moved.rest, moved.gone⟩
    exact (mem_cons_elsewhere hx hook acting hook').symm.trans (attended.acting hook')
  · obtain ⟨act, waiting⟩ := s
    obtain rfl : act = some hook := (attended.acting hook).1 (List.mem_cons_self ..)
    have gone : e.index < w.entities.size ∧ w.entity? e = none := by
      rcases attended.gone hslot with ⟨idle, -⟩ | gone
      · cases idle
      · exact gone
    rw [stagesAt_here]
    refine ⟨served, _, .finish log, ⟨fun hook' => ?_, ?_, ?_, fun _ => .inr ?_⟩⟩
    · exact ⟨fun hmem => absurd (List.mem_map_of_mem (f := Acting.place) hmem) free, nofun⟩
    · intro slot hfound
      unfold World.slot? World.slots? World.entity? at hfound hslot
      rw [entities, hslot] at hfound
      cases hfound
    · intro there
      unfold World.slot? World.slots? World.entity? at there hslot
      rw [entities, hslot] at there
      cases there
    · unfold World.entity? at gone ⊢
      rwa [entities]

end InService

/-- Every change serves hooks in order. -/
theorem Change.inService [Scalar K] [Behavior K B] {scope : Scope K B} {base : List (Stage K)}
    {x y : Instant K B} (change : Change scope x y) (h : InService base x) : InService base y := by
  cases change with
  | edit x _ => exact h.undisturbed (World.stages_apply _ x) (.apply _ x)
  | record aside => exact h.undisturbed (World.stages_record_aside _ aside) (.of_entities rfl)
  | dequeue | lend | restore _ => exact h.undisturbed rfl (.of_entities rfl)
  | reclaim e => exact h.undisturbed (World.stages_reclaim _ e) (.reclaim _ e)
  | switch ha hstate =>
    exact h.undisturbed rfl (.of_slots (.switch ha hstate) (World.slots?_modifyActor _ _ _))
  | enable e index enabled =>
    exact h.undisturbed rfl (.modifySlot _ e index (fun _ _ => rfl) fun _ => rfl)
  | putOff _ hslot out => exact h.putOff hslot out _
  | start _ hslot hcomponent => exact h.start hslot hcomponent _
  | resume hslot hdeferred => exact h.resume hslot hdeferred
  | finish component hslot nothing => exact h.finish component hslot nothing
  | vanish component hslot => exact h.vanish component hslot

/-- Where no component is acting, none is. -/
theorem Attended.acting_none {w : World K B} {x : EntityId × Nat} {s : Service K}
    (h : Attended ⟨[], w⟩ x s) : s.acting = none := by
  cases hacting : s.acting with
  | none => rfl
  | some hook => exact absurd ((h.acting hook).2 hacting) List.not_mem_nil

/-- Where no component is acting, all are in their slots. -/
theorem InService.world_rested {base : List (Stage K)} {w : World K B}
    (h : InService base ⟨[], w⟩) : w.Rested := by
  intro x slot hslot
  obtain ⟨new, -, places⟩ := h.stages
  obtain ⟨-, ⟨act, waiting⟩, -, attended⟩ := places x
  obtain rfl : act = none := attended.acting_none
  obtain ⟨acts, waits⟩ := attended.slot slot hslot
  have nothing := attended.rest (by rw [hslot, Option.isSome_some]) rfl
  exact ⟨by simpa using acts, waits.trans nothing⟩

/-! ## Scenes -/

section Scenes

variable [Scalar K] [Behavior K B]

/-- A scene is at rest whenever nothing is executing. -/
theorem Reachable.rested {w : World K B} (h : Reachable (Scope.everything K B).fit w) :
    w.Rested := by
  obtain ⟨w₀, entities, -, -, leads⟩ :=
    h.exists_leads Scope.behaved_everything fun _ => ⟨trivial, trivial⟩
  have empty : w₀.Rested := by
    intro x slot hslot
    unfold World.slot? World.slots? World.entity? at hslot
    simp [entities] at hslot
  exact (leads.keeps Change.inService (.rested empty)).world_rested

/-- The stages of a component between two moments of rest, and the hooks that were put off and lost:
it acts on one hook at a time, and on each hook that was put off and not lost once, in order, after
it has come to an end with the one before. -/
structure ServedInOrder (log : List (HookStage × Hook K)) (lost : List (Hook K)) : Prop where
  pattern : ∃ served, Served log served ⟨none, lost⟩ ∧ putOffs log = served ++ lost
  apart : ∀ before hook after, log = before ++ (.began, hook) :: after →
    reached .began before = reached .ended before

omit [Scalar K] [Behavior K B] in
/-- At rest the service of a component is over, and its hooks have been served in order. -/
theorem Served.inOrder {log : List (HookStage × Hook K)} {served lost : List (Hook K)}
    (h : Served log served ⟨none, lost⟩) : ServedInOrder log lost := by
  refine ⟨⟨served, h, h.putOffs_eq⟩, fun before hook after hlog => ?_⟩
  rw [hlog] at h
  exact h.apart

/-- A hook for a component that acts is put off. -/
theorem InService.respond_acting {base : List (Stage K)} {y : Instant K B}
    (h : InService base y) {a : Acting K} (ha : a ∈ y.acting)
    (there : (y.world.slot? a.actor a.index).isSome) (depth : Nat) (hook : Hook K) :
    ∃ w, SceneM.respond (depth + 1) (.hook a.actor a.index hook) y.world = .ok () w ∧
      w.stages = y.world.stages ++ [⟨a.actor, a.index, .deferred, hook⟩] := by
  obtain ⟨slot, hslot⟩ := Option.isSome_iff_exists.1 there
  obtain ⟨new, -, places⟩ := h.stages
  obtain ⟨-, s, -, attended⟩ := places (a.actor, a.index)
  have acts := (attended.acting a.hook).1 ha
  have out : slot.component = none := by
    have := (attended.slot slot hslot).1
    rw [acts] at this
    simpa using this
  have run : SceneM.respond (depth + 1) (.hook a.actor a.index hook) y.world
      = .ok () ((y.world.modifySlot a.actor a.index fun slot =>
        { slot with deferred := slot.deferred ++ [hook] }).record
          (.hook a.actor a.index .deferred hook)) := by
    unfold SceneM.respond
    refine (bind_of_ok (t := y.world) rfl).trans ?_
    rw [hslot]
    dsimp only
    rw [out]
    rfl
  exact ⟨_, run, World.stages_record_hook _ a.actor a.index .deferred hook⟩

/-- What an impulse sets off at an instant at which nothing executes. -/
theorem InService.respond_rested {base : List (Stage K)} {w w' : World K B}
    (h : InService base ⟨[], w⟩) {depth : Nat} {impulse : Impulse K}
    (hrun : SceneM.respond depth impulse w = .ok () w') :
    (Scope.everything K B).Leads ⟨[], w⟩ ⟨[], w'⟩ ∧ w'.Rested ∧
      ∃ new, w'.stages = w.stages ++ new ∧ ∀ x : EntityId × Nat, ∃ lost,
        ServedInOrder (stagesAt x new) lost ∧ ((w'.slot? x.1 x.2).isSome → lost = []) := by
  have sent : (Scope.everything K B).Sends impulse := by
    cases impulse <;> trivial
  have leads : (Scope.everything K B).Leads ⟨[], w⟩ ⟨[], w'⟩ :=
    Scope.leads_respond Scope.behaved_everything (Scope.fitScheduler_everything w) hrun sent []
  -- the account begins anew here, since nothing is left of what came before
  have after : InService w.stages ⟨[], w'⟩ :=
    leads.keeps Change.inService (.rested h.world_rested)
  obtain ⟨new, hnew, places⟩ := after.stages
  refine ⟨leads, after.world_rested, new, hnew, fun x => ?_⟩
  obtain ⟨done, ⟨act, waiting⟩, log, attended⟩ := places x
  obtain rfl : act = none := attended.acting_none
  exact ⟨waiting, log.inOrder, fun there => attended.rest there rfl⟩

/-- Hooks that are asked for while components act are neither lost, nor doubled, nor mixed up,
whatever components, observers and host functions do. In a scene that comes about from an empty one
every component of an actor is in its slot and no hook waits for it. From there on, at every instant
to which the scene leads, no component acts inside itself, and a hook for one that acts is put off.
At every instant at which nothing executes, also in the middle of a program or of a frame, all
components are again in their slots and no hook waits; and whatever is set off there, when it has
come to an end, the scene is at rest once more, and every component whose actor is still there has
acted on all hooks that were put off in the meantime, once each, in the order in which they were
asked for, and always after it had come to an end with the hook before. -/
theorem reentrant_hooks_are_served {w : World K B}
    (h : Reachable (Scope.everything K B).fit w) :
    w.Rested ∧
    (∀ y, (Scope.everything K B).Leads ⟨[], w⟩ y →
      (y.acting.map Acting.place).Nodup ∧
      ∀ a ∈ y.acting, (y.world.slot? a.actor a.index).isSome → ∀ depth hook,
        ∃ w', SceneM.respond (depth + 1) (.hook a.actor a.index hook) y.world = .ok () w' ∧
          w'.stages = y.world.stages ++ [⟨a.actor, a.index, .deferred, hook⟩]) ∧
    ∀ v, (Scope.everything K B).Leads ⟨[], w⟩ ⟨[], v⟩ → v.Rested ∧
      ∀ depth impulse w', SceneM.respond depth impulse v = .ok () w' →
        (Scope.everything K B).Leads ⟨[], v⟩ ⟨[], w'⟩ ∧ w'.Rested ∧
        ∃ new, w'.stages = v.stages ++ new ∧ ∀ x : EntityId × Nat, ∃ lost,
          ServedInOrder (stagesAt x new) lost ∧ ((w'.slot? x.1 x.2).isSome → lost = []) := by
  have rested := h.rested
  have served : ∀ y, (Scope.everything K B).Leads ⟨[], w⟩ y → InService w.stages y :=
    fun y leads => leads.keeps Change.inService (.rested rested)
  refine ⟨rested, fun y leads => ⟨(served y leads).nodup, fun a ha there depth hook => ?_⟩,
    fun v leads => ⟨(served _ leads).world_rested, fun depth impulse w' hrun => ?_⟩⟩
  · exact (served y leads).respond_acting ha there depth hook
  · exact (served _ leads).respond_rested hrun

end Scenes

/-! ## A component that switches itself off -/

/-- A component that switches itself off and on again while it is updated. -/
inductive Restless where
  | restless

instance : Behavior Float32 Restless where
  typeName _ := "Restless"
  react b e hook :=
    match hook with
    | .update _ => do
      let () ← Program.request (.setEnabled e (.custom "Restless") false)
      let () ← Program.request (.setEnabled e (.custom "Restless") true)
      return b
    | _ => return b

/-- An actor with one such component. -/
def restlessScene : Program Float32 Restless Unit := do
  let e ← Program.edit (.spawn (.named "a"))
  let _ ← Program.edit (.add e (.custom .restless))
  return ()

/-- Both hooks are put off during the update and acted on after it, in order. -/
theorem reentrant_hooks_are_served_restless :
    ∃ w w' : World Float32 Restless, Reachable (Scope.everything Float32 Restless).fit w ∧
      SceneM.respond 3 (.hook ⟨0⟩ 0 (.update 1)) w = .ok () w' ∧ w.stages.length = 0 ∧
      w'.stages.map (fun s => s.stage) = [.began, .deferred, .deferred, .ended, .began, .ended,
        .began, .ended] ∧
      w'.Rested ∧ ∃ new, w'.stages = w.stages ++ new ∧ ∀ x : EntityId × Nat, ∃ lost,
        ServedInOrder (stagesAt x new) lost ∧ ((w'.slot? x.1 x.2).isSome → lost = []) := by
  have run : restlessScene.passes .bare fun _ w => decide (w.stages.length = 0) &&
      passes (SceneM.respond 3 (.hook ⟨0⟩ 0 (.update 1))) w fun _ w' =>
        decide (w'.stages.map (fun s => s.stage) = [.began, .deferred, .deferred, .ended, .began,
          .ended, .began, .ended]) := by decide +kernel
  obtain ⟨_, w, hrun, checked⟩ := Program.exists_of_passes run
  simp only [Bool.and_eq_true, decide_eq_true_eq] at checked
  obtain ⟨_, w', hresponse, stages⟩ := exists_of_passes checked.2
  have h : Reachable (Scope.everything Float32 Restless).fit w :=
    .step (.empty rfl rfl rfl rfl) (.program (Scope.fit_everything restlessScene) hrun)
  obtain ⟨-, rested, served⟩ := ((reentrant_hooks_are_served h).2.2 w .refl).2 3 _ w' hresponse
  exact ⟨w, w', h, hresponse, checked.1, of_decide_eq_true stages, rested, served⟩

end SheepScene
