import SheepScene.Proofs.Scene.Moves

/-!
# Movers that can arrive

A mover that holds a handle cannot arrive while it is disabled, and neither while its actor is
switched off. A scene is tended (`World.Tended`) when no mover is left holding a handle like that,
but for what is known to be under way: some movers execute, some are about to be enabled or
disabled, and some are still to be told that their actor has been switched off (`Unrest`). Here it
is shown how every elementary change of a scene acts on what is under way.
-/

set_option autoImplicit false

namespace SheepScene

variable {K B : Type}

/-- What is under way in a scene. -/
structure Unrest where
  /-- Places of movers of which little is asked: they execute, or are about to be enabled or
  disabled. -/
  exempt : List (EntityId × Nat)
  /-- Places of movers that are still to be told that their actor has been switched off. -/
  due : List (EntityId × Nat)
  /-- Places of other components that execute. -/
  busy : List (EntityId × Nat)

namespace Unrest

/-- Nothing is under way. -/
def none : Unrest :=
  { exempt := [], due := [], busy := [] }

/-- The mover at a place is exempt as well. -/
def except (u : Unrest) (x : EntityId × Nat) : Unrest :=
  { u with exempt := x :: u.exempt }

/-- The component at a place executes as well. -/
def without (u : Unrest) (x : EntityId × Nat) : Unrest :=
  { u with busy := x :: u.busy }

/-- The movers at some more places are still to be told. -/
def after (u : Unrest) (places : List (EntityId × Nat)) : Unrest :=
  { u with due := places ++ u.due }

/-- At a place everything that is under way by one account is under way by another one. -/
def Within (u u' : Unrest) (x : EntityId × Nat) : Prop :=
  (x ∈ u.exempt → x ∈ u'.exempt) ∧ (x ∈ u.due → x ∈ u'.due)

/-- What is under way is under way. -/
theorem within_refl (u : Unrest) (x : EntityId × Nat) : u.Within u x :=
  ⟨id, id⟩

/-- With one more exemption everything else is as much under way. -/
theorem within_except (u : Unrest) (x y : EntityId × Nat) : u.Within (u.except y) x :=
  ⟨List.mem_cons_of_mem _, id⟩

/-- An exemption matters at its own place only. -/
theorem except_within {u : Unrest} {x y : EntityId × Nat} (hne : y ≠ x) :
    (u.except x).Within u y :=
  ⟨fun h => (List.mem_cons.1 h).resolve_left hne, id⟩

end Unrest

/-- A slot holds what it should: a mover where it is the slot of one, unless the mover executes. A
mover in it whose move is over holds nothing, and one that holds a handle is enabled and knows when
its actor has been switched `off`. -/
structure Slot.Tended (slot : Slot K B) (u : Unrest) (x : EntityId × Nat) (off : Prop) : Prop where
  kind : ∀ c, slot.component = some c → slot.kind = .mover → ∃ m, c = .mover m
  released : ∀ m, slot.component = some (.mover m) → m.finished = true → m.done = none
  present : slot.kind = .mover → slot.component = none → x ∈ u.exempt
  running : ∀ m, slot.component = some (.mover m) → m.done.isSome → x ∉ u.exempt →
    slot.enabled = true ∧ (off → x ∈ u.due)

/-- A slot is tended where more is under way, and where its actor is switched off less. -/
theorem Slot.Tended.mono {slot : Slot K B} {u u' : Unrest} {x : EntityId × Nat} {off off' : Prop}
    (h : slot.Tended u x off) (within : u.Within u' x) (on : off' → off) :
    slot.Tended u' x off' where
  kind := h.kind
  released := h.released
  present hkind hempty := within.1 (h.present hkind hempty)
  running m hm hdone hx := by
    obtain ⟨henabled, htold⟩ := h.running m hm hdone fun hx' => hx (within.1 hx')
    exact ⟨henabled, fun hoff => within.2 (htold (on hoff))⟩

/-- The slot of a component that is no mover. -/
theorem Slot.tended_of_other {slot : Slot K B} {u : Unrest} {x : EntityId × Nat} {off : Prop}
    (hkind : slot.kind ≠ .mover) (hc : ∀ m, slot.component ≠ some (.mover m)) :
    slot.Tended u x off :=
  ⟨fun _ _ hk => absurd hk hkind, fun m hm => absurd hm (hc m), fun hk => absurd hk hkind,
    fun m hm => absurd hm (hc m)⟩

/-- A slot whose component is out. -/
theorem Slot.tended_of_empty {slot : Slot K B} {u : Unrest} {x : EntityId × Nat} {off : Prop}
    (hempty : slot.component = none) (exempt : slot.kind = .mover → x ∈ u.exempt) :
    slot.Tended u x off := by
  refine ⟨fun c hc => ?_, fun m hm => ?_, fun hk _ => exempt hk, fun m hm => ?_⟩
  · cases hempty.symm.trans hc
  · cases hempty.symm.trans hm
  · cases hempty.symm.trans hm

/-- A slot with a mover in it. -/
theorem Slot.tended_of_mover {slot : Slot K B} {u : Unrest} {x : EntityId × Nat} {off : Prop}
    {m : Mover K} (hm : slot.component = some (.mover m))
    (released : m.finished = true → m.done = none)
    (running : m.done.isSome → x ∉ u.exempt → slot.enabled = true ∧ (off → x ∈ u.due)) :
    slot.Tended u x off := by
  refine ⟨fun c hc _ => ?_, fun n hn => ?_, fun _ hempty => ?_, fun n hn => ?_⟩
  · cases hm.symm.trans hc
    exact ⟨m, rfl⟩
  · cases hm.symm.trans hn
    exact released
  · rw [hm] at hempty
    cases hempty
  · cases hm.symm.trans hn
    exact running

namespace World

/-- No mover is left holding a handle with which it cannot arrive, but for what is under way. -/
structure Tended (u : Unrest) (w : World K B) : Prop where
  slot : ∀ x slot, w.slot? x.1 x.2 = some slot → slot.Tended u x (w.SwitchedOff x.1)
  busy : ∀ x ∈ u.busy, x.1.index < w.entities.size ∧ ((w.slots? x.1).isSome →
    ∃ slot, w.slot? x.1 x.2 = some slot ∧ slot.kind ≠ .mover)

/-- An active actor has not been switched off. -/
theorem not_switchedOff_of_isActive {w : World K B} {e : EntityId} (h : w.isActive e = true) :
    ¬ w.SwitchedOff e := by
  rintro ⟨a, ha, hoff⟩
  cases hoff.symm.trans ((isActive_iff.1 h).2 e (self_mem_lineage w e) a ha)

/-- Whether an actor has been switched off has nothing to do with its slots. -/
theorem switchedOff_modifySlots {w : World K B} {e x : EntityId}
    {f : Array (Slot K B) → Array (Slot K B)} :
    (w.modifySlots e f).SwitchedOff x ↔ w.SwitchedOff x := by
  rw [SwitchedOff, actor?_modifySlots]
  exact Iff.rfl

namespace Tended

variable {u u' : Unrest} {w w' : World K B}

/-- The actors and slots may be the same, or no more than flagged for removal. -/
theorem sameSlots (h : w.Tended u) (same : SameSlots w w') : w'.Tended u := by
  have slot : ∀ x : EntityId × Nat, w'.slot? x.1 x.2 = w.slot? x.1 x.2 := by
    intro x
    rw [slot?, same.slots]
    rfl
  refine ⟨fun x s hs => ?_, fun x hx => ?_⟩
  · rw [slot] at hs
    exact (h.slot x s hs).mono (u.within_refl x) (same.on x.1)
  · rw [same.size, same.slots, slot]
    exact h.busy x hx

/-- Everything but the entities may change. -/
theorem of_entities (h : w.Tended u) (entities : w'.entities = w.entities) : w'.Tended u := by
  have waiting : SameSlots w { w' with waits := w.waits } := .of_entities entities (.refl _)
  obtain ⟨slot, busy⟩ := h.sameSlots waiting
  exact ⟨slot, busy⟩

/-- What is under way may be seen to, or come up, at one place. -/
theorem change (h : w.Tended u) (x : EntityId × Nat) (others : ∀ y, y ≠ x → u.Within u' y)
    (busy : u'.busy = u.busy)
    (here : ∀ slot, w.slot? x.1 x.2 = some slot → slot.Tended u' x (w.SwitchedOff x.1)) :
    w.Tended u' := by
  refine ⟨fun y slot hslot => ?_, busy ▸ h.busy⟩
  by_cases hy : y = x
  · subst hy
    exact here slot hslot
  · exact (h.slot y slot hslot).mono (others y hy) id

/-- A component that executes may be forgotten. -/
theorem forget {x : EntityId × Nat} (h : w.Tended (u.without x)) : w.Tended u :=
  ⟨fun y slot hslot => (h.slot y slot hslot).mono ⟨id, id⟩ id,
    fun y hy => h.busy y (List.mem_cons_of_mem _ hy)⟩

/-! ## Changes of one slot -/

section ModifySlot

variable {e : EntityId} {index : Nat} {f : Slot K B → Slot K B}

/-- A slot may change as long as it remains the slot of a component of its kind. -/
theorem modifySlot (h : w.Tended u) (kind : ∀ slot, (f slot).kind = slot.kind)
    (others : ∀ y, y ≠ (e, index) → u.Within u' y)
    (busy : ∀ y ∈ u'.busy, y ∈ u.busy ∨ ∃ slot, w.slot? y.1 y.2 = some slot ∧ slot.kind ≠ .mover)
    (here : ∀ slot, w.slot? e index = some slot →
      (f slot).Tended u' (e, index) (w.SwitchedOff e)) :
    (w.modifySlot e index f).Tended u' := by
  refine ⟨fun x slot hslot => ?_, fun x hx => ⟨?_, fun hslots => ?_⟩⟩
  · rw [slot?_modifySlot] at hslot
    split at hslot
    · rename_i hx
      subst hx
      obtain ⟨old, hold, rfl⟩ := Option.map_eq_some_iff.1 hslot
      exact (here old hold).mono (u'.within_refl _) switchedOff_modifySlots.1
    · rename_i hx
      exact (h.slot x slot hslot).mono (others x hx) switchedOff_modifySlots.1
  · refine Array.size_modify.symm ▸ ?_
    rcases busy x hx with hx | ⟨slot, hslot, -⟩
    · exact (h.busy x hx).1
    · exact index_lt_of_slot? hslot
  · rw [isSome_slots?_modifySlot] at hslots
    have hslot : ∃ slot, w.slot? x.1 x.2 = some slot ∧ slot.kind ≠ .mover :=
      (busy x hx).elim (fun hx => (h.busy x hx).2 hslots) id
    obtain ⟨slot, hslot, hkind⟩ := hslot
    rw [slot?_modifySlot]
    split
    · rename_i heq
      subst heq
      exact ⟨f slot, by rw [hslot, Option.map_some], kind slot ▸ hkind⟩
    · exact ⟨slot, hslot, hkind⟩

/-- What is under way remains so while a slot changes. -/
theorem revise (h : w.Tended u) (kind : ∀ slot, (f slot).kind = slot.kind)
    (here : ∀ slot, w.slot? e index = some slot →
      (f slot).Tended u (e, index) (w.SwitchedOff e)) : (w.modifySlot e index f).Tended u :=
  h.modifySlot kind (fun y _ => u.within_refl y) (fun _ => .inl) here

/-- Enabling a component leaves a scene tended. -/
theorem enable (h : w.Tended u) :
    (w.modifySlot e index fun slot => { slot with enabled := true }).Tended u := by
  refine h.revise (fun _ => rfl) fun slot hslot => ?_
  have old := h.slot (e, index) slot hslot
  exact ⟨old.kind, old.released, old.present, fun m hm hdone hx =>
    ⟨rfl, (old.running m hm hdone hx).2⟩⟩

/-- A mover that is disabled is still to be told. -/
theorem disable (h : w.Tended u) :
    (w.modifySlot e index fun slot => { slot with enabled := false }).Tended
      (u.except (e, index)) := by
  refine h.modifySlot (fun _ => rfl) (fun y _ => u.within_except y _) (fun _ => .inl)
    fun slot hslot => ?_
  have old := h.slot (e, index) slot hslot
  exact ⟨old.kind, old.released, fun _ _ => List.mem_cons_self,
    fun _ _ _ hx => absurd List.mem_cons_self hx⟩

/-- Putting a hook off leaves a scene tended. -/
theorem putOff (h : w.Tended u) (f : List (Hook K) → List (Hook K)) :
    (w.modifySlot e index fun slot => { slot with deferred := f slot.deferred }).Tended u := by
  refine h.revise (fun _ => rfl) fun slot hslot => ?_
  have old := h.slot (e, index) slot hslot
  exact ⟨old.kind, old.released, old.present, old.running⟩

/-- A mover that is exempt leaves its slot to execute. -/
theorem takeMover (h : w.Tended (u.except (e, index))) :
    (w.setComponent e index none).Tended (u.except (e, index)) :=
  h.revise (fun _ => rfl) fun _ _ => Slot.tended_of_empty rfl fun _ => List.mem_cons_self

/-- A mover comes back that is as it should be. -/
theorem putMover (h : w.Tended (u.except (e, index))) {m : Mover K}
    (released : m.finished = true → m.done = none)
    (running : ∀ slot, w.slot? e index = some slot → m.done.isSome → (e, index) ∉ u.exempt →
      slot.enabled = true ∧ (w.SwitchedOff e → (e, index) ∈ u.due)) :
    (w.setComponent e index (some (.mover m))).Tended u := by
  refine h.modifySlot (fun _ => rfl) (fun y hy => Unrest.except_within hy) (fun _ => .inl)
    fun slot hslot => ?_
  exact Slot.tended_of_mover rfl released (running slot hslot)

/-- Another component leaves its slot to execute. -/
theorem takeOther (h : w.Tended u) {slot : Slot K B} {c : Component K B}
    (hslot : w.slot? e index = some slot) (hc : slot.component = some c)
    (other : ∀ m, c ≠ .mover m) :
    (w.setComponent e index none).Tended (u.without (e, index)) := by
  have hkind : slot.kind ≠ .mover := by
    intro hkind
    obtain ⟨m, hm⟩ := (h.slot (e, index) slot hslot).kind c hc hkind
    exact other m hm
  refine h.modifySlot (fun _ => rfl) (fun y _ => ⟨id, id⟩) (fun y hy => ?_) fun old hold => ?_
  · rcases List.mem_cons.1 hy with rfl | hy
    · exact .inr ⟨slot, hslot, hkind⟩
    · exact .inl hy
  · cases hslot.symm.trans hold
    exact Slot.tended_of_other hkind fun _ hm => nomatch hm

/-- It comes back as some other component. -/
theorem putOther (h : w.Tended (u.without (e, index))) {c : Component K B}
    (other : ∀ m, c ≠ .mover m) : (w.setComponent e index (some c)).Tended u := by
  refine h.modifySlot (fun _ => rfl) (fun y _ => ⟨id, id⟩)
    (fun y hy => .inl (List.mem_cons_of_mem _ hy)) fun slot hslot => ?_
  obtain ⟨old, hold, hkind⟩ := (h.busy (e, index) List.mem_cons_self).2
    (isSome_slots?_of_slot? hslot)
  cases hslot.symm.trans hold
  exact Slot.tended_of_other hkind fun m hm => other m (Option.some.inj hm)

end ModifySlot

/-! ## Entities and components coming and going -/

/-- Entities without components may come, and entities may go. -/
theorem entities (h : w.Tended u) (size : w.entities.size ≤ w'.entities.size)
    (old : ∀ e, e.index < w.entities.size → (w'.slots? e).isSome → w'.entity? e = w.entity? e)
    (new : ∀ e index, ¬ e.index < w.entities.size → w'.slot? e index = none) : w'.Tended u := by
  have view : ∀ x : EntityId × Nat, x.1.index < w.entities.size → (w'.slots? x.1).isSome →
      w'.slot? x.1 x.2 = w.slot? x.1 x.2 ∧ (w'.SwitchedOff x.1 → w.SwitchedOff x.1) := by
    intro x hlt hslots
    have entity := old x.1 hlt hslots
    refine ⟨?_, fun hoff => ?_⟩
    · rw [slot?, slots?, entity]
      rfl
    · rwa [SwitchedOff, actor?, entity] at hoff
  refine ⟨fun x slot hslot => ?_, fun x hx => ⟨?_, fun hslots => ?_⟩⟩
  · by_cases hlt : x.1.index < w.entities.size
    · obtain ⟨same, on⟩ := view x hlt (isSome_slots?_of_slot? hslot)
      exact (h.slot x slot (same ▸ hslot)).mono (u.within_refl x) on
    · rw [new x.1 x.2 hlt] at hslot
      cases hslot
  · exact Nat.lt_of_lt_of_le (h.busy x hx).1 size
  · obtain ⟨hlt, hbusy⟩ := h.busy x hx
    rw [(view x hlt hslots).1]
    refine hbusy ?_
    rwa [slots?, ← old x.1 hlt hslots]

/-- Creating an entity without components leaves a scene tended. -/
theorem create (h : w.Tended u) {entity : Entity K B}
    (empty : ∀ slots, entity.slots = some slots → slots = #[]) :
    (w.create entity).2.Tended u := by
  have hentity := entity?_create w entity
  refine h.entities ?_ (fun e hlt _ => ?_) fun e index hnew => ?_
  · exact Nat.le_of_lt (Array.size_push _ ▸ Nat.lt_succ_self _)
  · rw [hentity, if_neg (Nat.ne_of_lt hlt)]
  · rw [slot?, slots?, hentity]
    split
    · cases hslots : entity.slots with
      | none => simp [hslots]
      | some slots => simp [hslots, empty slots hslots]
    · rw [entity?, Array.getElem?_eq_none (Nat.le_of_not_lt hnew)]
      rfl

/-- Spawning an actor leaves a scene tended. -/
theorem spawn (h : w.Tended u) (spec : ActorSpec K) : (w.spawn spec).2.Tended u := by
  have created : ∀ {entity : Entity K B}, entity.slots = some #[] →
      ({ (w.create entity).2 with
        roster := some ((w.create entity).2.actors ++ [(w.create entity).1]) } :
          World K B).Tended u := by
    intro entity hslots
    refine (h.create fun slots hslots' => ?_).of_entities rfl
    exact Option.some.inj (hslots'.symm.trans hslots)
  unfold World.spawn
  dsimp only
  split
  · exact (created rfl).sameSlots (.of_onlyPlaces (onlyPlaces_setParent _ _ _))
  · exact created rfl

/-- Despawning leaves a scene tended. -/
theorem despawn (h : w.Tended u) (e : EntityId) : (w.despawn e).2.Tended u := by
  have hentity := entity?_despawn w e
  refine h.entities (Nat.le_of_eq (size_despawn w e).symm) (fun x _ hslots => ?_)
    fun x index hnew => ?_
  · rw [hentity]
    refine if_neg fun heq => ?_
    rw [slots?, hentity, if_pos heq] at hslots
    cases hslots
  · rw [slot?, slots?, hentity, entity?, Array.getElem?_eq_none (Nat.le_of_not_lt hnew)]
    split <;> rfl

/-- Reclaiming leaves a scene tended. -/
theorem reclaim (h : w.Tended u) (e : EntityId) : (w.reclaim e).Tended u := by
  have detached := (h.sameSlots (.of_onlyPlaces (onlyPlaces_detach w e))).despawn e
  exact detached.of_entities rfl

/-- Adding a slot that is tended itself leaves a scene tended. -/
theorem push (h : w.Tended u) {e : EntityId} {slots : Array (Slot K B)} {slot : Slot K B}
    (hslots : w.slots? e = some slots)
    (here : slot.Tended u (e, slots.size) (w.SwitchedOff e)) :
    (w.modifySlots e fun slots => slots.push slot).Tended u := by
  have hslot := slot?_push hslots slot
  refine ⟨fun x s hs => ?_, fun x hx => ⟨?_, fun hsome => ?_⟩⟩
  · rw [hslot] at hs
    split at hs
    · rename_i hx
      subst hx
      cases hs
      exact here.mono (u.within_refl _) switchedOff_modifySlots.1
    · exact (h.slot x s hs).mono (u.within_refl x) switchedOff_modifySlots.1
  · exact Array.size_modify.symm ▸ (h.busy x hx).1
  · rw [isSome_slots?_modifySlots] at hsome
    obtain ⟨s, hs, hkind⟩ := (h.busy x hx).2 hsome
    rw [hslot, if_neg ?_]
    · exact ⟨s, hs, hkind⟩
    · rintro rfl
      -- a new slot is where no component can have left
      rw [slot?, hslots, Option.bind_some, Array.getElem?_size] at hs
      cases hs

/-- Adding a component leaves a scene tended if a mover that holds a handle comes only to an actor
that is not switched off. -/
theorem addComponent [Behavior K B] (h : w.Tended u) (e : EntityId) {c : Component K B}
    (here : ∀ m, c = .mover m → (m.finished = true → m.done = none) ∧
      (m.done.isSome → ¬ w.SwitchedOff e)) : (w.addComponent e c).2.Tended u := by
  unfold World.addComponent
  split
  · rename_i slots hslots
    refine h.push hslots ?_
    cases c with
    | mover m =>
      obtain ⟨released, on⟩ := here m rfl
      exact Slot.tended_of_mover rfl released fun hdone _ =>
        ⟨rfl, fun hoff => absurd hoff (on hdone)⟩
    | listener | custom b =>
      exact Slot.tended_of_other (fun hk => nomatch hk) fun _ hm => nomatch hm
  · exact h.sameSlots (.trans (.of_onlyPlaces (AgreesOn.record w _)) (.dropComponent _ c))

/-- A mover that is set to a new move with nobody waiting for it. -/
theorem retarget [Scalar K] (h : w.Tended u) (e : EntityId) (target : Vec3 K) (duration : K) :
    (w.retarget e target duration none).2.Tended u := by
  rcases w.retarget_cases e target duration none with heq | ⟨index, m, -, -, heq⟩
  · rw [heq]
    exact h
  · rw [heq]
    refine (h.sameSlots (.dropComponent w _)).revise (fun _ => rfl) fun slot hslot => ?_
    exact Slot.tended_of_mover rfl (fun hfinished => nomatch hfinished) fun hdone => nomatch hdone

/-! ## Switching actors -/

/-- An actor may be switched off when all of its movers are still to be told. -/
theorem switch (h : w.Tended u) (e : EntityId) (state : ActorState) :
    (w.modifyActor e fun a => { a with state }).Tended
      (u.after ((List.range (w.componentCount e)).map (e, ·))) := by
  have slots := slots?_modifyActor w e fun a => { a with state }
  have hslot : ∀ x : EntityId × Nat,
      (w.modifyActor e fun a => { a with state }).slot? x.1 x.2 = w.slot? x.1 x.2 := by
    intro x
    rw [slot?, slots]
    rfl
  refine ⟨fun x slot hs => ?_, fun x hx => ?_⟩
  · rw [hslot] at hs
    have old := h.slot x slot hs
    by_cases hx : x.1 = e
    · have mem : x ∈ (u.after ((List.range (w.componentCount e)).map (e, ·))).due := by
        refine List.mem_append_left _ (List.mem_map.2 ⟨x.2, List.mem_range.2 ?_, by rw [← hx]⟩)
        exact lt_componentCount (hx ▸ hs)
      exact ⟨old.kind, old.released, old.present, fun m hm hdone hx' =>
        ⟨(old.running m hm hdone hx').1, fun _ => mem⟩⟩
    · refine old.mono ⟨id, List.mem_append_right _⟩ fun hoff => ?_
      rwa [SwitchedOff, actor?_modifyActor, if_neg hx] at hoff
  · rw [slots, hslot]
    exact ⟨Array.size_modify.symm ▸ (h.busy x hx).1, (h.busy x hx).2⟩

/-- Places of an actor at which there is no component do not count. -/
theorem recount {e : EntityId} {n : Nat} (h : w.Tended (u.after ((List.range n).map (e, ·)))) :
    w.Tended (u.after ((List.range (w.componentCount e)).map (e, ·))) := by
  refine ⟨fun x slot hslot => (h.slot x slot hslot).mono ⟨id, fun hdue => ?_⟩ id, h.busy⟩
  rcases List.mem_append.1 hdue with hmem | hmem
  · obtain ⟨i, -, rfl⟩ := List.mem_map.1 hmem
    refine List.mem_append_left _ (List.mem_map.2 ⟨i, List.mem_range.2 ?_, rfl⟩)
    exact lt_componentCount hslot
  · exact List.mem_append_right _ hmem

/-! ## Edits -/

/-- Edits that neither issue a handle nor make a component hold one. -/
theorem apply [Scalar K] [Behavior K B] (h : w.Tended u) {x : Edit K B} (calm : x.Calm) :
    (w.apply x).2.Tended u := by
  cases x with
  | spawn spec => exact h.spawn spec
  | spawnTransform position rotation scale => exact h.create fun slots hslots => nomatch hslots
  | spawnBare => exact h.create fun slots hslots => nomatch hslots
  | despawn e => exact h.despawn e
  | add e component =>
    refine h.addComponent e fun m hm => ?_
    subst hm
    exact ⟨fun _ => calm, fun hdone => by rw [show m.done = none from calm] at hdone; cases hdone⟩
  | retarget e target duration done =>
    cases calm
    exact h.retarget e target duration
  | issueWait => exact absurd calm id
  | _ =>
    refine h.sameSlots (.apply w ?_)
    trivial

/-- In an empty scene there is nothing to tend. -/
theorem of_empty (entities : w.entities = #[]) : w.Tended .none := by
  refine ⟨fun x slot hslot => ?_, fun x hx => absurd hx List.not_mem_nil⟩
  rw [slot?, slots?, entity?, entities] at hslot
  cases hslot

end Tended

/-! ## Movers that are given a handle -/

/-- The first mover of an actor has been given a handle, and is about to be enabled. -/
structure Primed (u : Unrest) (x : EntityId × Nat) (w : World K B) : Prop where
  tended : w.Tended (u.except x)
  first : ((w.slots? x.1).bind fun slots => Slots.index? slots .mover) = some x.2
  present : ∃ m, w.cell? x = some (some (.mover m))
  on : ¬ w.SwitchedOff x.1

variable {u : Unrest} {w : World K B}

/-- When the mover is enabled, everything is as it should be. -/
theorem Primed.settle {x : EntityId × Nat} (h : w.Primed u x)
    (enabled : ∀ slot, w.slot? x.1 x.2 = some slot → slot.enabled = true) : w.Tended u := by
  refine h.tended.change x (fun y hy => Unrest.except_within hy) rfl fun slot hslot => ?_
  obtain ⟨m, hcell⟩ := h.present
  have hm : slot.component = some (.mover m) := by
    rw [cell?, hslot] at hcell
    exact Option.some.inj hcell
  exact Slot.tended_of_mover hm ((h.tended.slot x slot hslot).released m hm) fun _ _ =>
    ⟨enabled slot hslot, fun hoff => absurd hoff h.on⟩

/-- The first component of a kind stays the first one when slots keep their kinds. -/
theorem firstOf_modifySlot (e x : EntityId) (index : Nat) {f : Slot K B → Slot K B}
    (kind : ∀ slot, (f slot).kind = slot.kind) (k : ComponentKind) :
    (((w.modifySlot e index f).slots? x).bind fun slots => Slots.index? slots k)
      = (w.slots? x).bind fun slots => Slots.index? slots k := by
  have keeps : ∀ slots : Array (Slot K B),
      Slots.index? (slots.modify index f) k = Slots.index? slots k := by
    intro slots
    refine Option.ext fun i => ?_
    have same : ∀ j (h : j < slots.size), (if index = j then f slots[j] else slots[j]).kind
        = slots[j].kind := by
      intro j h
      split
      · exact kind _
      · rfl
    simp only [Slots.index?, Array.findIdx?_eq_some_iff_getElem, Array.getElem_modify,
      Array.size_modify, same]
  rw [modifySlot, slots?_modifySlots]
  split
  · cases w.slots? x with
    | none => rfl
    | some slots => exact keeps slots
  · rfl

/-- A scene that is primed is tended once the mover is enabled. -/
theorem Primed.enable {x : EntityId × Nat} (h : w.Primed u x) :
    (w.modifySlot x.1 x.2 fun slot => { slot with enabled := true }).Tended u := by
  have primed : (w.modifySlot x.1 x.2 fun slot => { slot with enabled := true }).Primed u x := by
    obtain ⟨m, hm⟩ := h.present
    refine ⟨h.tended.enable, ?_, ⟨m, ?_⟩, fun hoff => h.on (switchedOff_modifySlots.1 hoff)⟩
    · refine Eq.trans (firstOf_modifySlot x.1 x.1 x.2 ?_ .mover) h.first
      exact fun _ => rfl
    · rw [cell?_modifySlot, if_pos rfl]
      exact hm
  refine primed.settle fun slot hslot => ?_
  rw [slot?_modifySlot, if_pos rfl] at hslot
  obtain ⟨old, -, rfl⟩ := Option.map_eq_some_iff.1 hslot
  rfl

/-- Where no mover executes, the first mover is the first one in its slot. -/
theorem Tended.presentIndex?_eq (h : w.Tended u) (calm : u.exempt = []) (e : EntityId) :
    ((w.slots? e).bind fun slots => Slots.presentIndex? slots .mover)
      = (w.slots? e).bind fun slots => Slots.index? slots .mover := by
  refine World.presentIndex?_eq fun i slot hslot hkind => ?_
  have there := (h.slot (e, i) slot hslot).present
  rw [calm] at there
  cases hc : slot.component with
  | some c => rfl
  | none => exact absurd (there hkind hc) List.not_mem_nil

/-- A mover that is given a handle is about to be enabled. -/
theorem Tended.primed [Scalar K] (h : w.Tended u) (calm : u.exempt = []) {e : EntityId}
    (on : ¬ w.SwitchedOff e) {target : Vec3 K} {duration : K} {done : Option WaitHandle}
    (moved : (w.retarget e target duration done).1 = true) :
    ∃ index, (w.retarget e target duration done).2.Primed u (e, index) := by
  rcases w.retarget_cases e target duration done with heq | ⟨index, m, hpresent, hcell, heq⟩
  · rw [heq] at moved
    cases moved
  · rw [heq]
    have dropped := SameSlots.dropComponent w (.mover m)
    have hcell' : (w.dropComponent (.mover m)).cell? (e, index) = some (some (.mover m)) :=
      (dropped.sameCells.cells _).trans hcell
    refine ⟨index, ?_, ?_, ⟨m.retargeted target duration done, ?_⟩, fun hoff => ?_⟩
    · refine (h.sameSlots dropped).modifySlot (fun _ => rfl) (fun y _ => u.within_except y _)
        (fun _ => .inl) fun slot hslot => ?_
      exact Slot.tended_of_mover rfl (fun hfinished => nomatch hfinished) fun _ hx =>
        absurd List.mem_cons_self hx
    · rw [h.presentIndex?_eq calm, ← dropped.slots] at hpresent
      refine Eq.trans (firstOf_modifySlot e e index ?_ .mover) hpresent
      exact fun _ => rfl
    · exact (cell?_setComponent hcell' _ _).trans (if_pos rfl)
    · exact on (dropped.on e (switchedOff_modifySlots.1 hoff))

end World

end SheepScene
