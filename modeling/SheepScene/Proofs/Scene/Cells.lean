import SheepScene.Proofs.Scene.Keeping
import SheepScene.Proofs.Scene.Relinking

/-!
# Components in their cells

A component is in a cell of its actor, which is empty while the component executes. Most changes of
a scene leave the slots alone (`SameSlots`), or at least the cells (`SameCells`), though waits may
go on; the others add a cell, change what is in one, or take all cells of an entity away and let go
of what their components hold.
-/

set_option autoImplicit false

namespace SheepScene

variable {K B : Type}

/-! ## Waits going on -/

/-- Waits that have gone on: what was complete still is, and nothing was issued. -/
structure Waits.Progress (a b : Waits) : Prop where
  size : b.issued.size = a.issued.size
  complete : ∀ h, a.isComplete h = true → b.isComplete h = true

namespace Waits

/-- Standing still is progress of waits. -/
theorem Progress.refl (a : Waits) : a.Progress a :=
  ⟨rfl, fun _ h => h⟩

/-- Progress of waits is transitive. -/
theorem Progress.trans {a b c : Waits} (h : a.Progress b) (h' : b.Progress c) : a.Progress c :=
  ⟨h'.size.trans h.size, fun k hk => h'.complete k (h.complete k hk)⟩

/-- Completing a handle is progress. -/
theorem progress_complete (a : Waits) (h : WaitHandle) : a.Progress (a.complete h) := by
  refine ⟨?_, fun k hk => isComplete_complete hk h⟩
  cases h with
  | issued serial => exact Array.size_setIfInBounds
  | named number => rfl

/-- Naming a handle is progress, and issues none. -/
theorem progress_name (a : Waits) (number : Int) : a.Progress (a.name number).2 := by
  unfold name
  split
  · exact .refl a
  · rename_i hnew
    refine ⟨rfl, fun k hk => ?_⟩
    cases k with
    | issued serial => exact hk
    | named n =>
      simp only [isComplete, List.lookup_cons] at hk ⊢
      by_cases hn : n = number
      · rw [hn, Option.not_isSome_iff_eq_none.1 hnew] at hk
        cases hk
      · rw [show (n == number) = false by simpa using hn]
        exact hk

/-- A handle that was issued can be completed. -/
theorem isComplete_complete_self {a : Waits} {serial : Nat} (h : serial < a.issued.size) :
    (a.complete (.issued serial)).isComplete (.issued serial) = true := by
  simp [complete, isComplete, h]

/-- Issuing changes nothing for what was issued before. -/
theorem isComplete_issue {a : Waits} {serial : Nat} (h : serial < a.issued.size) :
    a.issue.2.isComplete (.issued serial) = a.isComplete (.issued serial) := by
  simp [issue, isComplete, Array.getElem?_push, Nat.ne_of_lt h]

/-- Issuing a handle makes the list of issued ones longer by one. -/
theorem size_issue (a : Waits) : a.issue.2.issued.size = a.issued.size + 1 :=
  Array.size_push _

end Waits

/-! ## Places of components -/

/-- The handle that a component holds. -/
def Component.holds? : Component K B → Option WaitHandle
  | .mover m => m.done
  | _ => none

/-- A mover whose move is over holds nothing. -/
def Component.Released (c : Component K B) : Prop :=
  ∀ m, c = .mover m → m.finished = true → m.done = none

/-- Edits that change places and write into the journal at most. -/
def Edit.Places : Edit K B → Prop
  | .place .. | .placeInWorld .. | .worldPosition _ | .localToWorld _ | .worldToLocal _
  | .localToWorldPoint .. | .worldToLocalPoint .. | .setParent .. | .removeChild ..
  | .translate .. | .rotate .. | .rotateAround .. | .invalidate _ | .worldRect _
  | .rectContains .. | .snapshot | .log .. | .note _ | .probed .. => True
  | _ => False

/-- Edits that leave all entities and slots in place and issue no handle. -/
def Edit.LeavesSlots : Edit K B → Prop
  | .spawn _ | .spawnTransform .. | .spawnBare | .despawn _ | .add .. | .retarget ..
  | .issueWait => False
  | _ => True

namespace World

/-- What is in the slot at a place; nothing while the component executes. -/
def cell? (w : World K B) (x : EntityId × Nat) : Option (Option (Component K B)) :=
  (w.slot? x.1 x.2).map (·.component)

/-- Changing an entity neither makes one nor removes one. -/
theorem isSome_entity?_modifyEntity (w : World K B) (e : EntityId) (f : Entity K B → Entity K B)
    (x : EntityId) : ((w.modifyEntity e f).entity? x).isSome = (w.entity? x).isSome := by
  rw [entity?_modifyEntity]
  split
  · exact Option.isSome_map
  · rfl

/-- What a change to the slots of one actor does to the slots of all. -/
theorem slots?_modifySlots (w : World K B) (e x : EntityId)
    (f : Array (Slot K B) → Array (Slot K B)) :
    (w.modifySlots e f).slots? x = if x = e then (w.slots? x).map f else w.slots? x := by
  unfold modifySlots slots?
  rw [entity?_modifyEntity]
  split
  · cases w.entity? x <;> rfl
  · rfl

/-- Changing slots neither makes slots nor removes them all. -/
theorem isSome_slots?_modifySlots (w : World K B) (e x : EntityId)
    (f : Array (Slot K B) → Array (Slot K B)) :
    ((w.modifySlots e f).slots? x).isSome = (w.slots? x).isSome := by
  rw [slots?_modifySlots]
  split
  · rw [Option.isSome_map]
  · rfl

/-- Changing slots changes no actor. -/
theorem actor?_modifySlots (w : World K B) (e x : EntityId)
    (f : Array (Slot K B) → Array (Slot K B)) :
    (w.modifySlots e f).actor? x = w.actor? x := by
  unfold modifySlots actor?
  rw [entity?_modifyEntity]
  split
  · cases w.entity? x <;> rfl
  · rfl

/-- Changing an actor changes no slots. -/
theorem slots?_modifyActor (w : World K B) (e : EntityId) (f : Actor K → Actor K) (x : EntityId) :
    (w.modifyActor e f).slots? x = w.slots? x := by
  unfold modifyActor slots?
  rw [entity?_modifyEntity]
  split
  · cases w.entity? x <;> rfl
  · rfl

/-- What a change to one actor does to all. -/
theorem actor?_modifyActor (w : World K B) (e : EntityId) (f : Actor K → Actor K) (x : EntityId) :
    (w.modifyActor e f).actor? x = if x = e then (w.actor? x).map f else w.actor? x := by
  unfold modifyActor actor?
  rw [entity?_modifyEntity]
  split
  · cases w.entity? x <;> rfl
  · rfl

/-- An actor is active when it has not been switched off or destroyed, nor any actor above it. -/
theorem isActive_iff {w : World K B} {e : EntityId} : w.isActive e = true ↔
    (w.actor? e).isSome ∧ ∀ x ∈ w.lineage e, ∀ a, w.actor? x = some a → a.state = .active := by
  rw [isActive, Bool.and_eq_true, List.all_eq_true]
  refine and_congr_right fun _ => forall₂_congr fun x _ => ?_
  cases w.actor? x with
  | none => exact ⟨fun _ a ha => (nomatch ha), fun _ => rfl⟩
  | some a =>
    exact ⟨fun h b hb => Option.some.inj hb ▸ eq_of_beq h, fun h => beq_iff_eq.2 (h a rfl)⟩

/-- Changing a slot neither makes slots nor removes them all. -/
theorem isSome_slots?_modifySlot (w : World K B) (e : EntityId) (index : Nat)
    (f : Slot K B → Slot K B) (x : EntityId) :
    ((w.modifySlot e index f).slots? x).isSome = (w.slots? x).isSome :=
  isSome_slots?_modifySlots w e x _

/-- Changing a slot changes no actor. -/
theorem actor?_modifySlot (w : World K B) (e : EntityId) (index : Nat) (f : Slot K B → Slot K B)
    (x : EntityId) : (w.modifySlot e index f).actor? x = w.actor? x :=
  actor?_modifySlots w e x _

/-- Whether the component at a place is enabled is written in its slot. -/
theorem slotEnabled_of_slot? {w : World K B} {e : EntityId} {index : Nat} {slot : Slot K B}
    (h : w.slot? e index = some slot) : w.slotEnabled e index = slot.enabled := by
  obtain ⟨slots, hslots, hindex⟩ := Option.bind_eq_some_iff.1 h
  rw [slotEnabled, hslots, Option.bind_some, Slots.enabled?, hindex]
  rfl

/-- Where no component of a type is executing, the first one is the first one in its slot. -/
theorem presentIndex?_eq {w : World K B} {e : EntityId} {kind : ComponentKind}
    (present : ∀ i slot, w.slot? e i = some slot → slot.kind = kind → slot.component.isSome) :
    ((w.slots? e).bind fun slots => Slots.presentIndex? slots kind)
      = (w.slots? e).bind fun slots => Slots.index? slots kind := by
  cases hslots : w.slots? e with
  | none => rfl
  | some slots =>
    have here : ∀ slot ∈ slots,
        (slot.kind == kind && slot.component.isSome) = (slot.kind == kind) := by
      intro slot hmem
      obtain ⟨i, hi⟩ := Array.mem_iff_getElem?.1 hmem
      have hslot : w.slot? e i = some slot := by rw [slot?, hslots, Option.bind_some, hi]
      cases hkind : slot.kind == kind with
      | false => rfl
      | true => exact present i slot hslot (eq_of_beq hkind)
    refine Option.ext fun i => ?_
    simp only [Option.bind_some, Slots.presentIndex?, Slots.index?,
      Array.findIdx?_eq_some_iff_getElem, here _ (Array.getElem_mem _)]

/-- A component that is enabled has a slot. -/
theorem exists_slot_of_slotEnabled {w : World K B} {e : EntityId} {index : Nat}
    (h : w.slotEnabled e index) : ∃ slot, w.slot? e index = some slot := by
  unfold slotEnabled Slots.enabled? at h
  unfold slot?
  cases hslots : w.slots? e with
  | none => simp [hslots] at h
  | some slots =>
    cases hslot : slots[index]? with
    | none => simp [hslots, hslot] at h
    | some slot => exact ⟨slot, by simp [hslot]⟩

/-- There is no slot beyond the components of an actor. -/
theorem lt_componentCount {w : World K B} {e : EntityId} {index : Nat} {slot : Slot K B}
    (h : w.slot? e index = some slot) : index < w.componentCount e := by
  obtain ⟨slots, hslots, hindex⟩ := Option.bind_eq_some_iff.1 h
  rw [componentCount, hslots]
  exact (Array.getElem?_eq_some_iff.1 hindex).1

/-- Slots after one has been changed. -/
theorem slot?_modifySlot (w : World K B) (e : EntityId) (index : Nat) (f : Slot K B → Slot K B)
    (x : EntityId × Nat) : (w.modifySlot e index f).slot? x.1 x.2
      = if x = (e, index) then (w.slot? e index).map f else w.slot? x.1 x.2 := by
  obtain ⟨y, i⟩ := x
  unfold slot? modifySlot
  rw [slots?_modifySlots]
  by_cases hy : y = e
  · subst hy
    rw [if_pos rfl]
    cases w.slots? y with
    | none => simp
    | some slots =>
      simp only [Option.map_some, Option.bind_some, Array.getElem?_modify]
      by_cases hi : i = index
      · simp [hi]
      · simp [hi, Ne.symm hi]
  · rw [if_neg hy, if_neg (by simp [hy])]

/-- Cells after a slot has been changed. -/
theorem cell?_modifySlot (w : World K B) (e : EntityId) (index : Nat) (f : Slot K B → Slot K B)
    (x : EntityId × Nat) : (w.modifySlot e index f).cell? x
      = if x = (e, index) then (w.slot? e index).map fun slot => (f slot).component
        else w.cell? x := by
  unfold cell?
  rw [slot?_modifySlot]
  split
  · rw [Option.map_map]
    rfl
  · rfl

/-- A component is put into a slot, or taken out of it. -/
abbrev setComponent (w : World K B) (e : EntityId) (index : Nat) (c : Option (Component K B)) :
    World K B :=
  w.modifySlot e index fun slot => { slot with component := c }

/-- Putting a component into a cell changes that cell alone. -/
theorem cell?_setComponent {w : World K B} {e : EntityId} {index : Nat}
    {d : Option (Component K B)} (hcell : w.cell? (e, index) = some d)
    (c : Option (Component K B)) (x : EntityId × Nat) :
    (w.setComponent e index c).cell? x
      = if x = (e, index) then some c else w.cell? x := by
  obtain ⟨slot, hslot, -⟩ := Option.map_eq_some_iff.1 hcell
  rw [cell?_modifySlot, hslot]
  rfl

/-- Slots after one has been added. -/
theorem slot?_push {w : World K B} {e : EntityId} {slots : Array (Slot K B)}
    (hslots : w.slots? e = some slots) (slot : Slot K B) (x : EntityId × Nat) :
    (w.modifySlots e fun slots => slots.push slot).slot? x.1 x.2
      = if x = (e, slots.size) then some slot else w.slot? x.1 x.2 := by
  obtain ⟨y, i⟩ := x
  unfold slot?
  rw [slots?_modifySlots]
  by_cases hy : y = e
  · subst hy
    rw [if_pos rfl, hslots]
    simp only [Option.map_some, Option.bind_some, Array.getElem?_push]
    by_cases hi : i = slots.size
    · simp [hi]
    · simp [hi]
  · rw [if_neg hy, if_neg (by simp [hy])]

/-- Cells after a slot has been added. -/
theorem cell?_push {w : World K B} {e : EntityId} {slots : Array (Slot K B)}
    (hslots : w.slots? e = some slots) (slot : Slot K B) (x : EntityId × Nat) :
    (w.modifySlots e fun slots => slots.push slot).cell? x
      = if x = (e, slots.size) then some slot.component else w.cell? x := by
  unfold cell?
  rw [slot?_push hslots]
  split
  · rfl
  · rfl

/-- There is no cell after the last slot. -/
theorem cell?_size {w : World K B} {e : EntityId} {slots : Array (Slot K B)}
    (hslots : w.slots? e = some slots) : w.cell? (e, slots.size) = none := by
  simp [cell?, slot?, hslots]

/-- An actor with a slot has a list of slots. -/
theorem isSome_slots?_of_slot? {w : World K B} {e : EntityId} {index : Nat} {slot : Slot K B}
    (h : w.slot? e index = some slot) : (w.slots? e).isSome := by
  obtain ⟨slots, hslots, -⟩ := Option.bind_eq_some_iff.1 h
  rw [hslots, Option.isSome_some]

/-- An actor with a cell has a list of slots. -/
theorem slots?_of_cell? {w : World K B} {x : EntityId × Nat} {c : Option (Component K B)}
    (h : w.cell? x = some c) : (w.slots? x.1).isSome := by
  obtain ⟨slot, hslot, -⟩ := Option.map_eq_some_iff.1 h
  exact isSome_slots?_of_slot? hslot

/-- An entity with a list of slots is one that there has been. -/
theorem index_lt_of_slots? {w : World K B} {e : EntityId} (h : (w.slots? e).isSome) :
    e.index < w.entities.size := by
  obtain ⟨slots, hslots⟩ := Option.isSome_iff_exists.1 h
  obtain ⟨x, hx, -⟩ := Option.bind_eq_some_iff.1 hslots
  exact index_lt_of_entity? hx

/-- An entity with a slot is one that there has been. -/
theorem index_lt_of_slot? {w : World K B} {e : EntityId} {index : Nat} {slot : Slot K B}
    (h : w.slot? e index = some slot) : e.index < w.entities.size :=
  index_lt_of_slots? (isSome_slots?_of_slot? h)

/-- An entity with a slot is there. -/
theorem isSome_entity?_of_slot? {w : World K B} {e : EntityId} {index : Nat} {slot : Slot K B}
    (h : w.slot? e index = some slot) : (w.entity? e).isSome := by
  obtain ⟨slots, hslots⟩ := Option.isSome_iff_exists.1 (isSome_slots?_of_slot? h)
  obtain ⟨entity, hentity, -⟩ := Option.bind_eq_some_iff.1 hslots
  rw [hentity, Option.isSome_some]

/-- An entity that is an actor is there. -/
theorem isSome_entity?_of_actor? {w : World K B} {e : EntityId} {a : Actor K}
    (h : w.actor? e = some a) : (w.entity? e).isSome := by
  obtain ⟨entity, hentity, -⟩ := Option.bind_eq_some_iff.1 h
  rw [hentity, Option.isSome_some]

/-- An actor that is inactive by itself, whatever its ancestors are. -/
def SwitchedOff (w : World K B) (e : EntityId) : Prop :=
  ∃ a, w.actor? e = some a ∧ a.state = .inactive

/-- Edits that only place entities change only placements and links. -/
theorem onlyPlaces_apply [Scalar K] [Behavior K B] (w : World K B) {x : Edit K B}
    (places : x.Places) : OnlyPlaces w (w.apply x).2 := by
  cases x with
  | place e placement => exact (sameLinks_place w e placement).onlyPlaces
  | placeInWorld e placement => exact (sameLinks_placeInWorld w e placement).onlyPlaces
  | worldPosition e => exact (settles_worldPosition w e).sameLinks.onlyPlaces
  | localToWorld e => exact (settles_localToWorld w e).sameLinks.onlyPlaces
  | worldToLocal e => exact (settles_worldToLocal w e).sameLinks.onlyPlaces
  | localToWorldPoint e v => exact (settles_localToWorldPoint w e v).sameLinks.onlyPlaces
  | worldToLocalPoint e v => exact (settles_worldToLocalPoint w e v).sameLinks.onlyPlaces
  | setParent e parent => exact onlyPlaces_setParent w e parent
  | removeChild parent e => exact onlyPlaces_removeChild w parent e
  | translate e offset space => exact (sameLinks_translate w e offset space).onlyPlaces
  | rotate e rotation space => exact (sameLinks_rotate w e rotation space).onlyPlaces
  | rotateAround e point rotation =>
    exact (sameLinks_rotateAround w e point rotation).onlyPlaces
  | invalidate e => exact (settles_invalidate w e).sameLinks.onlyPlaces
  | worldRect e => exact (settles_worldRect w e).sameLinks.onlyPlaces
  | rectContains e point => exact (settles_rectContains w e point).sameLinks.onlyPlaces
  | snapshot => exact (settles_snapshot w).sameLinks.onlyPlaces
  | log | note | probed => exact AgreesOn.record w _
  | _ => exact absurd places id

/-- Worlds with the same actors and the same slots, in which no actor has been switched off and
waits may have gone on. -/
structure SameSlots (w w' : World K B) : Prop where
  size : w'.entities.size = w.entities.size
  slots : ∀ e, w'.slots? e = w.slots? e
  actors : ∀ e, (w'.actor? e).isSome = (w.actor? e).isSome
  on : ∀ e, w'.SwitchedOff e → w.SwitchedOff e
  progress : w.waits.Progress w'.waits

namespace SameSlots

variable {w w' w₁ : World K B}

/-- Having the same slots is reflexive. -/
theorem refl (w : World K B) : SameSlots w w :=
  ⟨rfl, fun _ => rfl, fun _ => rfl, fun _ h => h, .refl _⟩

/-- Having the same slots is transitive. -/
theorem trans (h : SameSlots w w₁) (h' : SameSlots w₁ w') : SameSlots w w' :=
  ⟨h'.size.trans h.size, fun e => (h'.slots e).trans (h.slots e),
    fun e => (h'.actors e).trans (h.actors e), fun e he => h.on e (h'.on e he),
    h.progress.trans h'.progress⟩

/-- Waits going on and everything but the entities. -/
theorem of_entities (entities : w'.entities = w.entities) (progress : w.waits.Progress w'.waits) :
    SameSlots w w' := by
  have entity : ∀ e, w'.entity? e = w.entity? e := by
    intro e
    rw [entity?, entities]
    rfl
  refine ⟨by rw [entities], fun e => ?_, fun e => ?_, fun e he => ?_, progress⟩
  · rw [slots?, entity]
    rfl
  · rw [actor?, entity]
    rfl
  · rwa [SwitchedOff, actor?, entity] at he

/-- Changing places moves no component. -/
theorem of_onlyPlaces (h : OnlyPlaces w w') : SameSlots w w' := by
  refine ⟨h.size, h.slots?, fun e => ?_, fun e he => ?_, ?_⟩
  · rw [h.actor? e]
  · rwa [SwitchedOff, h.actor? e] at he
  · rw [h.rest]
    exact .refl _

/-- Queries keep the slots. -/
theorem of_settles (h : Settles w w') : SameSlots w w' :=
  of_onlyPlaces h.sameLinks.onlyPlaces

/-- Changing an entity apart from its components, without switching its actor off. -/
theorem modifyEntity {e : EntityId} {f : Entity K B → Entity K B}
    (slots : ∀ x, (f x).slots = x.slots) (actors : ∀ x, (f x).actor.isSome = x.actor.isSome)
    (on : ∀ x a, (f x).actor = some a → a.state = .inactive →
      ∃ a, x.actor = some a ∧ a.state = .inactive) :
    SameSlots w (w.modifyEntity e f) := by
  refine ⟨Array.size_modify, fun x => ?_, fun x => ?_, fun x hx => ?_, .refl _⟩
  · unfold slots?
    rw [entity?_modifyEntity]
    split
    · cases w.entity? x with
      | none => rfl
      | some entity => exact slots entity
    · rfl
  · unfold actor?
    rw [entity?_modifyEntity]
    split
    · cases w.entity? x with
      | none => rfl
      | some entity => exact actors entity
    · rfl
  · obtain ⟨a, ha, hoff⟩ := hx
    rw [actor?, entity?_modifyEntity] at ha
    split at ha
    · obtain ⟨entity', hentity', ha⟩ := Option.bind_eq_some_iff.1 ha
      obtain ⟨entity, hentity, rfl⟩ := Option.map_eq_some_iff.1 hentity'
      obtain ⟨a, ha, hoff⟩ := on entity a ha hoff
      exact ⟨a, Option.bind_eq_some_iff.2 ⟨entity, hentity, ha⟩, hoff⟩
    · exact ⟨a, ha, hoff⟩

/-- A change to an actor that does not switch it off keeps the slots. -/
theorem modifyActor (w : World K B) (e : EntityId) {f : Actor K → Actor K}
    (on : ∀ a, (f a).state = .inactive → a.state = .inactive) :
    SameSlots w (w.modifyActor e f) := by
  refine modifyEntity (fun _ => rfl) (fun x => by rw [Option.isSome_map]) fun x a ha hoff => ?_
  obtain ⟨b, hb, rfl⟩ := Option.map_eq_some_iff.1 ha
  exact ⟨b, hb, on b hoff⟩

/-- Many rounds keep the slots if every round does. -/
theorem foldl {β : Type} {l : List β} {f : World K B → β → World K B}
    (round : ∀ w b, SameSlots w (f w b)) (w : World K B) : SameSlots w (l.foldl f w) := by
  induction l generalizing w with
  | nil => exact refl w
  | cons b l ih => exact (round w b).trans (ih (f w b))

/-- Dropping a component that is out of its slot keeps the slots. -/
theorem dropComponent (w : World K B) (c : Component K B) : SameSlots w (w.dropComponent c) := by
  unfold World.dropComponent
  split
  · exact of_entities rfl (w.waits.progress_complete _)
  · exact refl w

/-- Marking an actor as destroyed keeps the slots. -/
theorem destroy (w : World K B) (e : EntityId) : SameSlots w (w.destroy e) :=
  foldl (fun w e => modifyActor w e (by rintro _ ⟨⟩)) w

/-- Changing an anchoring keeps the slots. -/
theorem changeAnchoring [Scalar K] (w : World K B) (e : EntityId) (change : AnchoringChange K) :
    SameSlots w (w.changeAnchoring e change) := by
  unfold World.changeAnchoring
  split
  · refine trans ?_ (of_settles (settles_invalidate _ e))
    exact modifyEntity (fun _ => rfl) (fun _ => rfl) fun _ a ha hoff => ⟨a, ha, hoff⟩
  · exact of_onlyPlaces (AgreesOn.record w _)

/-- Changing the viewport keeps the slots. -/
theorem setViewport (w : World K B) (viewport : Viewport) :
    SameSlots w (w.setViewport viewport) := by
  refine trans ?_ (foldl (fun w e => of_settles (settles_invalidate w e)) _)
  exact of_entities rfl (.refl _)

/-- Every edit that leaves slots alone keeps them. -/
theorem apply [Scalar K] [Behavior K B] (w : World K B) {x : Edit K B} (leaves : x.LeavesSlots) :
    SameSlots w (w.apply x).2 := by
  cases x with
  | setTimeScale e scale => exact modifyActor w e fun _ h => h
  | setUpdateEnabled e enabled => exact modifyActor w e fun _ h => h
  | destroy e => exact destroy w e
  | nameWait number => exact of_entities rfl (w.waits.progress_name number)
  | completeWait handle => exact of_entities rfl (w.waits.progress_complete handle)
  | changeAnchoring e change => exact changeAnchoring w e change
  | setViewport viewport => exact setViewport w viewport
  | send e action =>
    change SameSlots w (w.send e action).2
    unfold World.send
    split
    · exact refl w
    · exact of_entities rfl (.refl _)
  | tick | setClockScale | publishListener | draw => exact of_entities rfl (.refl _)
  | spawn | spawnTransform | spawnBare | despawn | add | retarget | issueWait =>
    exact absurd leaves id
  | _ => exact of_onlyPlaces (onlyPlaces_apply w trivial)

end SameSlots

/-- Worlds with the same components at the same places, in which waits may have gone on. -/
structure SameCells (w w' : World K B) : Prop where
  size : w'.entities.size = w.entities.size
  slots : ∀ e, (w'.slots? e).isSome = (w.slots? e).isSome
  actors : ∀ e, (w'.actor? e).isSome = (w.actor? e).isSome
  cells : ∀ x, w'.cell? x = w.cell? x
  progress : w.waits.Progress w'.waits

/-- Worlds with the same slots have the same components at the same places. -/
theorem SameSlots.sameCells {w w' : World K B} (h : SameSlots w w') : SameCells w w' := by
  refine ⟨h.size, fun e => by rw [h.slots], h.actors, fun x => ?_, h.progress⟩
  rw [cell?, slot?, h.slots]
  rfl

namespace SameCells

/-- Changing an actor moves no component. -/
theorem modifyActor (w : World K B) (e : EntityId) (f : Actor K → Actor K) :
    SameCells w (w.modifyActor e f) := by
  have slots := slots?_modifyActor w e f
  refine ⟨Array.size_modify, fun x => by rw [slots], fun x => ?_, fun x => ?_, .refl _⟩
  · rw [actor?_modifyActor]
    split
    · exact Option.isSome_map
    · rfl
  · rw [cell?, slot?, slots]
    rfl

/-- Changing a slot apart from its component. -/
theorem modifySlot (w : World K B) (e : EntityId) (index : Nat) {f : Slot K B → Slot K B}
    (same : ∀ slot, (f slot).component = slot.component) :
    SameCells w (w.modifySlot e index f) := by
  refine ⟨Array.size_modify, isSome_slots?_modifySlot w e index f, fun x => ?_,
    fun x => ?_, .refl _⟩
  · rw [actor?_modifySlot]
  · rw [cell?_modifySlot]
    split
    · rename_i heq
      cases heq
      rw [cell?, funext same]
    · rfl

end SameCells

/-! ## Dropping components -/

/-- Dropping a component completes what it holds and changes nothing else. -/
theorem dropComponent_eq (w : World K B) (c : Component K B) :
    w.dropComponent c = { w with waits := (c.holds?.map w.waits.complete).getD w.waits } := by
  cases c with
  | mover m =>
    obtain ⟨origin, target, duration, elapsed, easing, finished, done⟩ := m
    cases done <;> rfl
  | listener | custom b => rfl

/-- What a component holds is complete when the component has been dropped. -/
theorem isComplete_dropComponent (w : World K B) {c : Component K B} {serial : Nat}
    (hlt : serial < w.waits.issued.size) (hc : c.holds? = some (.issued serial)) :
    (w.dropComponent c).waits.isComplete (.issued serial) = true := by
  cases c with
  | mover m =>
    obtain ⟨origin, target, duration, elapsed, easing, finished, done⟩ := m
    cases hc
    exact Waits.isComplete_complete_self hlt
  | listener | custom b => cases hc

/-- The handle of a component that is among those dropped is complete after all are dropped. -/
theorem isComplete_foldl_dropComponent (components : List (Component K B)) {w : World K B}
    {c : Component K B} {serial : Nat} (hlt : serial < w.waits.issued.size)
    (hmem : c ∈ components) (hc : c.holds? = some (.issued serial)) :
    (components.foldl dropComponent w).waits.isComplete (.issued serial) = true := by
  induction components generalizing w with
  | nil => cases hmem
  | cons d components ih =>
    have progress := (SameSlots.dropComponent w d).progress
    rcases List.mem_cons.1 hmem with rfl | hmem
    · refine (SameSlots.foldl SameSlots.dropComponent (w.dropComponent c)).progress.complete _ ?_
      exact isComplete_dropComponent w hlt hc
    · refine ih ?_ hmem
      rwa [progress.size]

/-- Despawning an entity only completes handles. -/
theorem progress_despawn (w : World K B) (e : EntityId) :
    w.waits.Progress (w.despawn e).2.waits := by
  unfold despawn
  split
  · exact .refl _
  · exact (SameSlots.foldl SameSlots.dropComponent
      { w with entities := w.entities.setIfInBounds e.index none }).progress

/-- What the components of an entity hold is complete when the entity has been dropped. -/
theorem isComplete_despawn {w : World K B} {x : EntityId × Nat} {c : Component K B} {serial : Nat}
    (hcell : w.cell? x = some (some c)) (hlt : serial < w.waits.issued.size)
    (hc : c.holds? = some (.issued serial)) :
    (w.despawn x.1).2.waits.isComplete (.issued serial) = true := by
  obtain ⟨slot, hslot, hcomponent⟩ := Option.map_eq_some_iff.1 hcell
  obtain ⟨slots, hslots, hindex⟩ := Option.bind_eq_some_iff.1 hslot
  obtain ⟨entity, hentity, hslots⟩ := Option.bind_eq_some_iff.1 hslots
  unfold despawn
  rw [hentity]
  dsimp only
  refine isComplete_foldl_dropComponent _ hlt ?_ hc
  rw [hslots, Option.getD_some, List.mem_filterMap]
  exact ⟨slot, Array.mem_toList_iff.2 (Array.mem_of_getElem? hindex), hcomponent⟩

/-! ## Retargeting -/

section Retarget

variable [Scalar K]

/-- The mover that is looked up starts a new move. -/
theorem retarget_of_looked {w : World K B} {e : EntityId} {index : Nat} {m : Mover K}
    (found : ((w.slots? e).bind fun slots => Slots.presentIndex? slots .mover) = some index)
    (looked : w.component? e .mover = some (.mover m)) (target : Vec3 K) (duration : K)
    (done : Option WaitHandle) : w.retarget e target duration done
      = (true, (w.dropComponent (.mover m)).setComponent e index
          (some (.mover (m.retargeted target duration done)))) := by
  unfold retarget
  rw [found]
  dsimp only
  rw [looked]
  obtain ⟨origin, before, time, elapsed, easing, finished, held⟩ := m
  cases held <;> rfl

/-- Retargeting does nothing, or starts a move of the first mover that is in its cell, and lets go
of what the mover held. -/
theorem retarget_cases (w : World K B) (e : EntityId) (target : Vec3 K) (duration : K)
    (done : Option WaitHandle) : w.retarget e target duration done = (false, w) ∨
      ∃ index m, ((w.slots? e).bind fun slots => Slots.presentIndex? slots .mover) = some index ∧
        w.cell? (e, index) = some (some (.mover m)) ∧
        w.retarget e target duration done = (true, (w.dropComponent (.mover m)).setComponent e index
          (some (.mover (m.retargeted target duration done)))) := by
  unfold retarget
  split
  · exact .inl rfl
  · rename_i index hpresent
    split
    · rename_i m hm
      obtain ⟨slots, hslots, hindex⟩ := Option.bind_eq_some_iff.1 hpresent
      have hm : Slots.present? slots .mover = some (.mover m) := by
        rwa [component?, hslots, Option.bind_some] at hm
      rw [Slots.present?, hindex, Option.bind_some] at hm
      obtain ⟨slot, hslot, hcomponent⟩ := Option.bind_eq_some_iff.1 hm
      refine .inr ⟨index, m, hpresent, ?_, ?_⟩
      · rw [cell?, slot?, hslots, Option.bind_some, hslot, Option.map_some, hcomponent]
      · obtain ⟨origin, before, time, elapsed, easing, finished, held⟩ := m
        cases held <;> rfl
    · exact .inl rfl

end Retarget

end World

end SheepScene
