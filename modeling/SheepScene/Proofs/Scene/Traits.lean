import SheepScene.Proofs.Scene.Changes
import SheepScene.Proofs.Scene.Handles
import SheepScene.Proofs.Scene.Serving
import SheepScene.Proofs.Scene.Tidy

/-!
# What is true of each component

A trait is something that can be asked of a component by itself: where it is, of what type its slot
is, and how many handles have been issued. If components do not lose it by what they do
(`Trait.Stable`), and programs neither add components without it nor take it away, then all
components have it at any time, those that are executing included (`Trait.kept`).
-/

set_option autoImplicit false

namespace SheepScene

variable {K B : Type}

/-- Something that can be asked of each component of a scene. -/
structure Trait (K B : Type) where
  /-- How many handles have been issued at least. -/
  floor : Nat
  /-- Places that components have been added at already. -/
  places : List (EntityId × Nat)
  /-- What is asked, when so many handles have been issued, of a component at a place in a slot of a
  type. -/
  has : Nat → EntityId × Nat → ComponentKind → Component K B → Prop

namespace Trait

/-- What is asked when more handles have been issued. -/
def since (trait : Trait K B) (floor : Nat) : Trait K B :=
  { trait with floor }

/-- A trait that components do not lose by what they do. -/
structure Stable [Scalar K] (trait : Trait K B) : Prop where
  carried : ∀ {n x kind m start dt}, trait.has n x kind (.mover m) →
    trait.has n x kind (.mover (m.carried start dt))
  ended : ∀ {n x kind m}, trait.has n x kind (.mover m) → trait.has n x kind (.mover m.ended)
  restarted : ∀ {n x kind m}, trait.has n x kind (.mover m) →
    trait.has n x kind (.mover (m.retargeted m.target m.duration none))
  custom : ∀ {n x kind b b'}, trait.has n x kind (.custom b) → trait.has n x kind (.custom b')

end Trait

/-- An edit that adds no component without a trait, and takes it from none. -/
def Edit.Suits [Scalar K] [Behavior K B] (trait : Trait K B) : Edit K B → Prop
  | .add e c => ∀ n index, trait.floor ≤ n → (∀ x ∈ trait.places, x.1 = e → x.2 < index) →
    trait.has n (e, index) c.kind c
  | .retarget e target duration done => ∀ n index kind m, trait.floor ≤ n →
    trait.has n (e, index) kind (.mover m) →
    trait.has n (e, index) kind (.mover (m.retargeted target duration done))
  | .issueWait => ∀ n x kind c, trait.floor ≤ n → trait.has n x kind c →
    trait.has (n + 1) x kind c
  | _ => True

/-- A plain edit suits every trait. -/
theorem Edit.suits_of_plain [Scalar K] [Behavior K B] {trait : Trait K B} {x : Edit K B}
    (plain : x.Plain) : x.Suits trait := by
  cases x <;> first | exact trivial | exact absurd plain id

namespace World

/-- A component has been added at a place, and is there as long as its actor is. -/
def Occupied (w : World K B) (x : EntityId × Nat) : Prop :=
  x.1.index < w.entities.size ∧ ((w.slots? x.1).isSome → (w.slot? x.1 x.2).isSome)

namespace Occupied

variable {w w' : World K B} {x : EntityId × Nat}

/-- Where there is a slot a component has been added. -/
theorem of_slot? {slot : Slot K B} (there : w.slot? x.1 x.2 = some slot) : w.Occupied x :=
  ⟨index_lt_of_slot? there, fun _ => by rw [there, Option.isSome_some]⟩

/-- A place stays occupied as long as the slots are the same. -/
theorem same (h : w.Occupied x) (size : w'.entities.size = w.entities.size)
    (slots : ∀ e, w'.slots? e = w.slots? e) : w'.Occupied x := by
  rw [Occupied, size, slots, slot?_congr (slots x.1)]
  exact h

/-- A place stays occupied when a slot is changed. -/
theorem modifySlot (h : w.Occupied x) (e : EntityId) (index : Nat) (f : Slot K B → Slot K B) :
    (w.modifySlot e index f).Occupied x := by
  refine ⟨Array.size_modify.symm ▸ h.1, fun there => ?_⟩
  rw [isSome_slots?_modifySlot] at there
  rw [slot?_modifySlot]
  split
  · rename_i here
    rw [here] at h there
    exact Option.isSome_map.trans (h.2 there)
  · exact h.2 there

/-- A place stays occupied when a slot is added. -/
theorem push (h : w.Occupied x) {e : EntityId} {slots : Array (Slot K B)}
    (hslots : w.slots? e = some slots) (slot : Slot K B) :
    (w.modifySlots e fun slots => slots.push slot).Occupied x := by
  refine ⟨Array.size_modify.symm ▸ h.1, fun there => ?_⟩
  rw [isSome_slots?_modifySlots] at there
  rw [slot?_push hslots]
  split
  · rfl
  · exact h.2 there

/-- Another component is added behind. -/
theorem lt_size (h : w.Occupied x) {slots : Array (Slot K B)} (hslots : w.slots? x.1 = some slots) :
    x.2 < slots.size := by
  have there := h.2 (by rw [hslots, Option.isSome_some])
  rw [World.slot?, hslots, Option.bind_some] at there
  obtain ⟨slot, hslot⟩ := Option.isSome_iff_exists.1 there
  exact (Array.getElem?_eq_some_iff.1 hslot).1

/-- A place stays occupied when an entity is created. -/
theorem create (h : w.Occupied x) (entity : Entity K B) : (w.create entity).2.Occupied x := by
  have old : (w.create entity).2.slots? x.1 = w.slots? x.1 := by
    rw [slots?, entity?_create, if_neg (Nat.ne_of_lt h.1)]
    rfl
  refine ⟨(Array.size_push _).symm ▸ Nat.lt_succ_of_lt h.1, ?_⟩
  rw [slot?, old]
  exact h.2

/-- A place stays occupied when an entity is despawned. -/
theorem despawn (h : w.Occupied x) (e : EntityId) : (w.despawn e).2.Occupied x := by
  refine ⟨(size_despawn w e).symm ▸ h.1, ?_⟩
  rw [slot?, slots?, entity?_despawn]
  split
  · intro there
    cases there
  · exact h.2

end Occupied

/-- All components have a trait, those included that are executing and whose actor is there. -/
structure Endowed (trait : Trait K B) (out : List (Executing K B)) (w : World K B) : Prop where
  issued : trait.floor ≤ w.waits.issued.size
  places : ∀ x ∈ trait.places, w.Occupied x
  placed : ∀ x ∈ out, w.Occupied x.place
  each : ∀ x c, w.Present out x c → ∀ slot, w.slot? x.1 x.2 = some slot →
    trait.has w.waits.issued.size x slot.kind c

namespace Endowed

variable {trait : Trait K B} {out : List (Executing K B)} {w w' : World K B}

/-- Components have a trait as long as slots are the same and no handle is issued. -/
theorem same (h : w.Endowed trait out) (size : w'.entities.size = w.entities.size)
    (slots : ∀ e, w'.slots? e = w.slots? e)
    (issued : w'.waits.issued.size = w.waits.issued.size) : w'.Endowed trait out where
  issued := issued ▸ h.issued
  places x hx := (h.places x hx).same size slots
  placed x hx := (h.placed x hx).same size slots
  each x c hc s hs := by
    rw [slot?_congr (slots x.1)] at hs
    rw [Present, cell?, slot?_congr (slots x.1)] at hc
    rw [issued]
    exact h.each x c hc s hs

/-- Components have a trait as long as slots and waits are kept. -/
theorem sameSlots (h : w.Endowed trait out) (same : SameSlots w w') : w'.Endowed trait out :=
  h.same same.size same.slots same.progress.size

/-- Components have a trait as long as entities and waits are the same. -/
theorem of_entities (h : w.Endowed trait out) (entities : w'.entities = w.entities)
    (waits : w'.waits = w.waits) : w'.Endowed trait out :=
  h.sameSlots (.of_entities entities (waits ▸ .refl _))

/-- In an empty scene there is no component without it. -/
theorem of_empty (floor : trait.floor = 0) (places : trait.places = [])
    (entities : w.entities = #[]) : w.Endowed trait [] := by
  refine ⟨floor ▸ Nat.zero_le _, fun x hx => ?_, fun x hx => (nomatch hx),
    fun x c _ slot hslot => ?_⟩
  · rw [places] at hx
    cases hx
  · have := index_lt_of_slot? hslot
    simp [entities] at this

/-! ## One component -/

section Component

variable {e : EntityId} {index : Nat} {c c' : Component K B}

/-- An executing component goes away. -/
theorem forget (h : w.Endowed trait (⟨e, index, c⟩ :: out)) : w.Endowed trait out :=
  ⟨h.issued, h.places, fun x hx => h.placed x (List.mem_cons_of_mem _ hx),
    fun x d hd => h.each x d (hd.cons _)⟩

/-- An executing component changes. -/
theorem become (h : w.Endowed trait (⟨e, index, c⟩ :: out))
    (keeps : ∀ n kind, trait.has n (e, index) kind c → trait.has n (e, index) kind c') :
    w.Endowed trait (⟨e, index, c'⟩ :: out) := by
  refine ⟨h.issued, h.places, List.forall_mem_cons.2 (List.forall_mem_cons.1 h.placed),
    fun x d hd slot hslot => ?_⟩
  rcases present_cons.1 hd with hold | ⟨rfl, rfl⟩
  · exact h.each x d (hold.cons _) slot hslot
  · exact keeps _ _ (h.each _ c (present_executing out w e index c) slot hslot)

/-- A slot changes, and a component with the trait may come into it. -/
theorem modifySlot (h : w.Endowed trait out) {f : Slot K B → Slot K B}
    (kind : ∀ slot, (f slot).kind = slot.kind)
    (component : ∀ slot, w.slot? e index = some slot → ∀ c, (f slot).component = some c →
      slot.component = some c ∨ trait.has w.waits.issued.size (e, index) slot.kind c) :
    (w.modifySlot e index f).Endowed trait out := by
  refine ⟨h.issued, fun x hx => (h.places x hx).modifySlot e index f,
    fun x hx => (h.placed x hx).modifySlot e index f, fun x d hd slot hslot => ?_⟩
  rw [slot?_modifySlot] at hslot
  rw [Present, cell?_modifySlot] at hd
  split at hslot
  · rename_i here
    subst here
    obtain ⟨old, hold, rfl⟩ := Option.map_eq_some_iff.1 hslot
    rw [kind]
    rw [if_pos rfl, hold, Option.map_some, Option.some.injEq] at hd
    have before : ∀ c, old.component = some c → w.Present out (e, index) c := fun c hc =>
      .inl (by rw [cell?, hold, Option.map_some, hc])
    rcases hd with hcell | hmem
    · rcases component old hold d hcell with stays | comes
      · exact h.each _ d (before d stays) old hold
      · exact comes
    · exact h.each _ d (.inr hmem) old hold
  · rename_i elsewhere
    rw [if_neg elsewhere] at hd
    exact h.each x d hd slot hslot

/-- A component leaves its slot to execute. -/
theorem take (h : w.Endowed trait out) {slot : Slot K B} (there : w.slot? e index = some slot)
    (present : slot.component = some c) :
    (w.setComponent e index none).Endowed trait (⟨e, index, c⟩ :: out) := by
  have emptied : (w.setComponent e index none).Endowed trait out :=
    h.modifySlot (fun _ => rfl) fun _ _ c hc => nomatch hc
  have here := ((Reslotted.refl there).modifySlot fun slot => { slot with component := none }).here
  refine ⟨emptied.issued, emptied.places, List.forall_mem_cons.2 ⟨?_, emptied.placed⟩,
    fun x d hd slot' hslot => ?_⟩
  · exact Occupied.of_slot? (x := (e, index)) here
  · rcases present_cons.1 hd with hold | ⟨rfl, rfl⟩
    · exact emptied.each x d hold slot' hslot
    · rw [here] at hslot
      cases hslot
      exact h.each _ d (.inl (by rw [cell?, there, Option.map_some, present])) slot there

/-- An executing component goes back into its slot. -/
theorem put (h : w.Endowed trait (⟨e, index, c⟩ :: out)) :
    (w.setComponent e index (some c)).Endowed trait out :=
  h.forget.modifySlot (fun _ => rfl) fun slot hslot d hd => by
    cases hd
    exact .inr (h.each _ c (present_executing out w e index c) slot hslot)

/-- A component with the trait is added. -/
theorem push (h : w.Endowed trait out) {slots : Array (Slot K B)} (hslots : w.slots? e = some slots)
    {slot : Slot K B} (hc : slot.component = some c)
    (has : (∀ x ∈ trait.places, x.1 = e → x.2 < slots.size) →
      trait.has w.waits.issued.size (e, slots.size) slot.kind c) :
    (w.modifySlots e fun slots => slots.push slot).Endowed trait out := by
  refine ⟨h.issued, fun x hx => (h.places x hx).push hslots slot,
    fun x hx => (h.placed x hx).push hslots slot, fun x d hd s hs => ?_⟩
  rw [slot?_push hslots] at hs
  rw [Present, cell?_push hslots] at hd
  split at hs
  · rename_i here
    subst here
    cases hs
    rw [if_pos rfl, hc] at hd
    rcases hd with hcell | hmem
    · cases hcell
      exact has fun x hx there => (h.places x hx).lt_size (there ▸ hslots)
    · exact absurd ((h.placed _ hmem).lt_size hslots) (Nat.lt_irrefl _)
  · rename_i elsewhere
    rw [if_neg elsewhere] at hd
    exact h.each x d hd s hs

end Component

/-! ## Entities coming and going -/

/-- Creating an entity without components leaves the trait to all that are there. -/
theorem create (h : w.Endowed trait out) {entity : Entity K B}
    (empty : ∀ slots, entity.slots = some slots → slots = #[]) :
    (w.create entity).2.Endowed trait out := by
  refine ⟨h.issued, fun x hx => (h.places x hx).create entity,
    fun x hx => (h.placed x hx).create entity, fun x c hc slot hslot => ?_⟩
  have before : (w.create entity).2.slots? x.1 = w.slots? x.1 := by
    by_cases hx : x.1.index = w.entities.size
    · rw [slot?, slots?, entity?_create, if_pos hx] at hslot
      obtain ⟨slots, hslots, hindex⟩ := Option.bind_eq_some_iff.1 hslot
      rw [empty slots hslots] at hindex
      simp at hindex
    · rw [slots?, entity?_create, if_neg hx]
      rfl
  have same := slot?_congr before x.2
  rw [Present, cell?, same] at hc
  exact h.each x c hc slot (same ▸ hslot)

/-- Despawning leaves the trait to all that are there. -/
theorem despawn (h : w.Endowed trait out) (e : EntityId) : (w.despawn e).2.Endowed trait out := by
  have size := (progress_despawn w e).size
  refine ⟨size ▸ h.issued, fun x hx => (h.places x hx).despawn e,
    fun x hx => (h.placed x hx).despawn e, fun x c hc slot hslot => ?_⟩
  have same : (w.despawn e).2.slot? x.1 x.2 = w.slot? x.1 x.2 := by
    rw [slot?, slots?, entity?_despawn] at hslot ⊢
    split
    · rename_i here
      rw [if_pos here] at hslot
      cases hslot
    · rfl
  rw [Present, cell?, same] at hc
  rw [size]
  exact h.each x c hc slot (same ▸ hslot)

/-- Reclaiming leaves the trait to all that are there. -/
theorem reclaim (h : w.Endowed trait out) (e : EntityId) : (w.reclaim e).Endowed trait out :=
  ((h.sameSlots (.of_onlyPlaces (onlyPlaces_detach w e))).despawn e).of_entities rfl rfl

/-- Spawning an actor leaves the trait to all that are there. -/
theorem spawn (h : w.Endowed trait out) (spec : ActorSpec K) :
    (w.spawn spec).2.Endowed trait out := by
  have created : ∀ {entity : Entity K B}, entity.slots = some #[] →
      ({ (w.create entity).2 with
        roster := some ((w.create entity).2.actors ++ [(w.create entity).1]) } :
          World K B).Endowed trait out := fun hslots =>
    (h.create fun slots there => Option.some.inj (there.symm.trans hslots)).of_entities rfl rfl
  unfold World.spawn
  dsimp only
  split
  · exact (created rfl).sameSlots (.of_onlyPlaces (onlyPlaces_setParent _ _ _))
  · exact created rfl

/-! ## Edits -/

variable [Scalar K] [Behavior K B]

/-- An edit that suits the trait leaves it to all that are there. -/
theorem apply (h : w.Endowed trait out) {x : Edit K B} (suits : x.Suits trait) :
    (w.apply x).2.Endowed trait out := by
  cases x with
  | spawn spec => exact h.spawn spec
  | spawnTransform | spawnBare => exact h.create fun slots there => nomatch there
  | despawn e => exact h.despawn e
  | add e component =>
    change (w.addComponent e component).2.Endowed trait out
    unfold addComponent
    split
    · rename_i hslots
      exact h.push hslots rfl (suits _ _ h.issued)
    · exact h.sameSlots (.trans (.of_onlyPlaces (AgreesOn.record w _)) (.dropComponent _ component))
  | retarget e target duration done =>
    change (w.retarget e target duration done).2.Endowed trait out
    rcases w.retarget_cases e target duration done with same | ⟨index, m, -, hcell, moved⟩
    · rw [same]
      exact h
    · rw [moved]
      have dropped := SameSlots.dropComponent w (.mover m)
      refine (h.sameSlots dropped).modifySlot (fun _ => rfl) fun slot hslot c hc => .inr ?_
      cases hc
      rw [slot?, dropped.slots] at hslot
      rw [dropped.progress.size]
      exact suits _ _ _ _ h.issued (h.each _ _ (.inl hcell) slot hslot)
  | issueWait =>
    refine ⟨?_, h.places, h.placed, fun x c hc slot hslot => ?_⟩
    · exact Nat.le_trans h.issued (Nat.le_of_lt (Nat.lt_of_succ_le (Nat.le_of_eq
        w.waits.size_issue.symm)))
    · change trait.has w.waits.issue.2.issued.size x slot.kind c
      rw [Waits.size_issue]
      exact suits _ _ _ _ h.issued (h.each x c hc slot hslot)
  | _ =>
    refine h.sameSlots (.apply w ?_)
    trivial

end Endowed

end World

/-! ## Keeping a trait -/

namespace Trait

variable [Scalar K] [Behavior K B] {trait : Trait K B} {fit : Fitness K B}

/-- All components have a trait, and threads can call fit functions only. -/
def Had (trait : Trait K B) (fit : Fitness K B) (out : List (Executing K B)) (w : World K B) :
    Prop :=
  w.Endowed trait out ∧ FitScheduler fit w

section Had

variable {out : List (Executing K B)} {w w' : World K B}

omit [Scalar K] [Behavior K B] in
/-- A trait is had as long as components have it and the scheduler is the same. -/
theorem Had.modify {out' : List (Executing K B)} (h : trait.Had fit out w)
    (endowed : w'.Endowed trait out') (scheduler : w'.scheduler = w.scheduler) :
    trait.Had fit out' w' :=
  ⟨endowed, fun s hs => h.2 s (scheduler ▸ hs)⟩

/-- A trait is had after an edit that suits it. -/
theorem Had.apply (h : trait.Had fit out w) {x : Edit K B} (suits : x.Suits trait) :
    trait.Had fit out (w.apply x).2 :=
  h.modify (h.1.apply suits) (scheduler_apply w x)

omit [Scalar K] [Behavior K B] in
/-- A trait is had after a note in the journal. -/
theorem Had.record (h : trait.Had fit out w) (event : Event K B) :
    trait.Had fit out (w.record event) :=
  h.modify (h.1.of_entities rfl rfl) rfl

omit [Scalar K] [Behavior K B] in
/-- A component that executes may become another one that has it too. -/
theorem Had.become {e : EntityId} {index : Nat} {c c' : Component K B}
    (h : trait.Had fit (⟨e, index, c⟩ :: out) w)
    (keeps : ∀ n kind, trait.has n (e, index) kind c → trait.has n (e, index) kind c') :
    trait.Had fit (⟨e, index, c'⟩ :: out) w :=
  ⟨h.1.become keeps, h.2⟩

omit [Scalar K] [Behavior K B] in
/-- A trait that is had since some handles were issued is had since fewer were. -/
theorem Had.since {n : Nat} (h : (trait.since n).Had fit out w) (le : trait.floor ≤ n) :
    trait.Had fit out w :=
  ⟨⟨Nat.le_trans le h.1.issued, h.1.places, h.1.placed, h.1.each⟩, h.2⟩

end Had

section React

variable {perform : Performer K B} (serves : Serves (trait.Had fit) perform)
  {out : List (Executing K B)} {e : EntityId} {index : Nat}

include serves in
/-- Programs of requests that suit a trait keep it. -/
theorem keeps_only {R : Type} {p : Program K B R} {allowed : Request K B → Prop}
    (suits : ∀ x, allowed (.edit x) → x.Suits trait) (h : p.Only allowed)
    (out : List (Executing K B)) : Keeps (trait.Had fit out) (p.run perform) :=
  serves.keeps_only (fun x _ hx hw => hw.apply (suits x hx)) (fun event _ _ hw => hw.record event) h

include serves in
/-- Plain programs keep every trait. -/
theorem keeps_plain {R : Type} {p : Program K B R} (h : plain K B R p)
    (out : List (Executing K B)) : Keeps (trait.Had fit out) (p.run perform) :=
  keeps_only serves (fun _ => Edit.suits_of_plain) h out

variable (stable : trait.Stable) {m : Mover K}
include serves stable

/-- A mover has it when it is at the end of its move, if the trait is stable. -/
theorem ensures_finish : Ensures (trait.Had fit (⟨e, index, .mover m⟩ :: out))
    (m.finish.run perform) fun m' w => trait.Had fit (⟨e, index, .mover m'⟩ :: out) w :=
  ensures_runBind (keeps_plain serves (plain_of_quiet m.quiet_release) _) fun _ =>
    ensures_runPure fun _ hw => hw.become fun _ _ => stable.ended

/-- A hook leaves a mover with the trait. -/
theorem ensures_moverReact (hook : Hook K) :
    Ensures (trait.Had fit (⟨e, index, .mover m⟩ :: out)) ((m.react e hook).run perform)
      fun m' w => trait.Had fit (⟨e, index, .mover m'⟩ :: out) w := by
  cases hook with
  | enable =>
    change Ensures _ (m.onEnable.run perform) _
    unfold Mover.onEnable
    split
    · exact ensures_runBind (keeps_plain serves (plain_of_quiet m.quiet_release) _) fun _ =>
        ensures_runPure fun _ hw => hw.become fun _ _ => stable.restarted
    · exact ensures_runPure fun _ hw => hw
  | disable =>
    change Ensures _ ((m.onDisable e).run perform) _
    unfold Mover.onDisable
    split
    · exact ensures_runPure fun _ hw => hw
    · exact ensures_runBind (Q := fun _ => trait.Had fit (⟨e, index, .mover m⟩ :: out))
        (serves.ensures_edit fun _ hw => hw.apply trivial) fun _ => ensures_finish serves stable
  | update dt =>
    change Ensures _ ((m.onUpdate e dt).run perform) _
    cases going : m.finished with
    | true =>
      unfold Mover.onUpdate
      rw [if_pos going]
      exact ensures_runPure fun _ hw => hw
    | false =>
      rw [Mover.onUpdate_eq going]
      refine ensures_runBind (Q := fun _ => trait.Had fit (⟨e, index, .mover m⟩ :: out))
        (serves.ensures_edit fun _ hw => hw.apply trivial) fun found => ?_
      cases found with
      | none => exact ensures_runPure fun _ hw => hw
      | some start =>
        have carried : ∀ w, trait.Had fit (⟨e, index, .mover m⟩ :: out) w →
            trait.Had fit (⟨e, index, .mover (m.carried start dt)⟩ :: out) w :=
          fun w hw => hw.become fun _ _ => stable.carried
        refine ensures_runBind (Q := fun _ => trait.Had fit (⟨e, index, .mover m⟩ :: out))
          (serves.ensures_edit fun _ hw => hw.apply trivial) fun _ => ?_
        split
        · refine ensures_runBind ((ensures_finish serves stable).imp carried fun _ _ hw => hw)
            fun m' => ?_
          refine ensures_runBind (Q := fun _ => trait.Had fit (⟨e, index, .mover m'⟩ :: out))
            (ensures_runRequest (serves.compound (.setEnabled e .mover false) trivial _))
            fun _ => ?_
          exact ensures_runPure fun _ hw => hw
        · exact ensures_runPure carried
  | lateUpdate dt => exact ensures_runPure fun _ hw => hw

/-- A hook leaves a component with the trait. -/
theorem ensures_react (program : ∀ {R : Type} {p : Program K B R}, fit R p →
      ∀ out, Keeps (trait.Had fit out) (p.run perform))
    (custom : ∀ (b : B) e (hook : Hook K), fit B (Behavior.react b e hook))
    (c : Component K B) (hook : Hook K) :
    Ensures (trait.Had fit (⟨e, index, c⟩ :: out)) ((c.react e hook).run perform)
      fun c w => trait.Had fit (⟨e, index, c⟩ :: out) w := by
  cases c with
  | mover m =>
    exact ensures_runBind (ensures_moverReact serves stable hook) fun _ =>
      ensures_runPure fun _ hw => hw
  | listener =>
    exact ensures_runBind (keeps_plain serves (plain_listenerReact e hook) _) fun _ =>
      ensures_runPure fun _ hw => hw
  | custom b =>
    exact ensures_runBind (program (custom b e hook) _) fun _ =>
      ensures_runPure fun _ hw => hw.become fun _ _ => stable.custom

end React

/-- A stable trait that fit programs keep is kept by everything that happens to a scene. -/
theorem kept (stable : trait.Stable)
    (program : ∀ {perform}, Serves (trait.Had fit) perform → ∀ {R : Type} {p : Program K B R},
      fit R p → ∀ out, Keeps (trait.Had fit out) (p.run perform))
    (custom : ∀ (b : B) e (hook : Hook K), fit B (Behavior.react b e hook))
    (observe : ∀ event, fit Unit (Behavior.observe event)) : Kept fit (trait.Had fit) where
  program := program
  react serves e index c hook out := ensures_react serves stable (program serves) custom c hook
  observe := observe
  record event _ hw := hw.record event
  note event hw := hw.record event
  switch e state hw := hw.modify (hw.1.same Array.size_modify
    (World.slots?_modifyActor _ e _) rfl) rfl
  enable e index enabled hw :=
    hw.modify (hw.1.modifySlot (fun _ => rfl) fun _ _ _ => .inl) rfl
  putOff e index f hw := hw.modify (hw.1.modifySlot (fun _ => rfl) fun _ _ _ => .inl) rfl
  tick dt hw := hw.apply (x := .tick dt) trivial
  dequeue hw := hw.modify (hw.1.of_entities rfl rfl) rfl
  place e placement hw := hw.apply (x := .place e placement) trivial
  destroy e hw := hw.apply (x := .destroy e) trivial
  reclaim e hw := hw.modify (hw.1.reclaim e) (scheduler_reclaim _ e)
  table hw scheduler := hw.2 _ scheduler
  lend hw := ⟨hw.1.of_entities rfl rfl, fun s hs => nomatch hs⟩
  restore fitting hw := by
    refine ⟨hw.1.of_entities rfl rfl, fun s hs => ?_⟩
    cases hs
    exact fitting
  take there present hw := hw.modify (hw.1.take there present) rfl
  put _ hw := hw.modify hw.1.put rfl
  drop {out w e index c} _ hw := by
    refine hw.modify (hw.1.forget.sameSlots (.dropComponent w c)) ?_
    rw [World.dropComponent_eq]

section Any

variable (stable : trait.Stable) (suits : ∀ x : Edit K B, x.Suits trait)
include stable suits

/-- A stable trait that all edits suit is kept whatever programs do. -/
theorem kept_any (custom : ∀ (b : B) e (hook : Hook K), fit B (Behavior.react b e hook))
    (observe : ∀ event, fit Unit (Behavior.observe event)) : Kept fit (trait.Had fit) :=
  kept stable (fun serves _ p _ out =>
    keeps_only serves (fun x _ => suits x) (Scope.fit_everything p) out) custom observe

/-- A stable trait that all edits suit is kept by any programs. -/
theorem kept_everything :
    Kept (Scope.everything K B).fit (trait.Had (Scope.everything K B).fit) :=
  kept_any stable suits (fun _ _ _ => Scope.fit_everything _) fun _ => Scope.fit_everything _

end Any

end Trait

end SheepScene
