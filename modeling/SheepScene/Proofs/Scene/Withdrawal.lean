import SheepScene.Proofs.Scene.Deactivation
import SheepScene.Proofs.Scene.Dues
import SheepScene.Proofs.Scene.Listeners
import SheepScene.Proofs.Scene.Switches

/-!
# When a listener withdraws

A listener that is disabled, or whose actor is switched off, withdraws if the scene is heard from
its actor. So in every scene, while nothing is going on, the one from whom the scene is heard has an
enabled listener and has not been switched off itself, unless it has been destroyed
(`heard_actor_is_on`). Nobody tells a listener that its actor is destroyed or that an actor above it
is switched off, so that the scene may still be heard from an actor that has gone
(`heard_actor_may_be_gone`).
-/

set_option autoImplicit false

namespace SheepScene

variable {K B : Type}

/-- Requests other than saying who the scene is heard from. -/
def Request.Mute : Request K B → Prop
  | .edit (.publishListener _) => False
  | _ => True

/-- Programs may make any request but say who the scene is heard from. -/
def Scope.mute (K B : Type) : Scope K B where
  requests := Request.Mute
  hooks _ := True
  destroy _ := trivial
  place _ _ := trivial
  tick _ := trivial
  enable := trivial
  disable := trivial
  updates _ _ _ _ := ⟨trivial, trivial⟩

/-- Custom components and observers are mute. -/
abbrev MuteBehavior (K B : Type) [Behavior K B] : Prop :=
  CustomFit (Scope.mute K B).fit

open Program

/-- Quiet programs are mute. -/
theorem mute_of_quiet {R : Type} {p : Program K B R} (h : quiet K B R p) :
    (Scope.mute K B).fit R p := by
  refine h.mono fun request allowed => ?_
  cases request with
  | edit x => cases x <;> first | exact trivial | exact allowed
  | _ => trivial

/-- All components but listeners are mute, and none of them becomes a listener. -/
theorem MuteBehavior.behaved [Scalar K] [Behavior K B] (h : MuteBehavior K B) :
    (Scope.mute K B).BehavedBut (· = .listener) where
  observe := h.observe
  react component other e hook := by
    cases component with
    | mover m => exact only_bind (mute_of_quiet (m.quiet_react e hook)) fun _ => only_pure _
    | listener => exact absurd rfl other
    | custom b => exact only_bind (h.react b e hook) fun _ => only_pure _
  stays component other e hook := by
    cases component with
    | mover m => exact yields_bind _ fun _ => nofun
    | listener => exact absurd rfl other
    | custom b => exact yields_bind _ fun _ => nofun

/-- The functions that every scene offers are mute. -/
theorem HostFunctions.fitTable_mute : FitTable (Scope.mute Float32 B).fit table := by
  intro f hf args
  refine (hosted hf args).mono fun request allowed => ?_
  cases request with
  | edit x => cases x <;> first | exact trivial | exact allowed
  | _ => trivial

/-! ## Listeners that are to withdraw -/

/-- The hook is for the component at a place, and disables it. -/
def Due.Disables (x : EntityId × Nat) : Due → Prop
  | .actor e on => e = x.1 ∧ on = false
  | .follow y on | .toggle y on => y = x ∧ on = false

namespace World

/-- The actor from which the scene is heard. -/
def heardFrom? (w : World K B) : Option EntityId :=
  w.listener.bind (·.actor)

/-- There is a listener at a place that is enabled and whose actor has not been switched off, or
that is still to be told. -/
def Attends (p : Pending) (w : World K B) (x : EntityId × Nat) : Prop :=
  ∃ slot, w.slot? x.1 x.2 = some slot ∧ slot.component = some .listener ∧
    (.toggle x false ∈ p.due ∨ slot.enabled = true ∧
      (w.SwitchedOff x.1 → .actor x.1 false ∈ p.due ∨ .follow x false ∈ p.due))

/-- The scene is heard from nobody, or from an actor with a listener that will withdraw when it has
to, unless the actor has been destroyed. -/
structure Heard (p : Pending) (w : World K B) : Prop where
  known : ∀ e, w.heardFrom? = some e → e.index < w.entities.size ∧
    ((w.entity? e).isSome → (w.actor? e).isSome)
  attends : ∀ e a, w.heardFrom? = some e → w.actor? e = some a → a.state ≠ .destroyed →
    ∃ index, w.Attends p (e, index)
  /-- No hook is put off by a listener. -/
  prompt : ∀ (x : EntityId × Nat) slot, w.slot? x.1 x.2 = some slot →
    slot.component = some .listener → slot.deferred = []
  out : ∀ x ∈ p.out, x.1.index < w.entities.size ∧ ((w.entity? x.1).isSome →
    ∃ slot, w.slot? x.1 x.2 = some slot ∧ slot.component = none)
  nodup : p.out.Nodup

variable {p p' : Pending} {w w' : World K B} {x : EntityId × Nat}

/-- A listener attends as long as its slot is the same and what is due for it stays due. -/
theorem Attends.congr (h : w.Attends p x) (slot : w'.slot? x.1 x.2 = w.slot? x.1 x.2)
    (on : w'.SwitchedOff x.1 → w.SwitchedOff x.1)
    (due : ∀ d ∈ p.due, d.Disables x → d ∈ p'.due) : w'.Attends p' x := by
  obtain ⟨s, hslot, listener, told⟩ := h
  refine ⟨s, slot.trans hslot, listener, told.imp (due _ · ⟨rfl, rfl⟩) fun ⟨enabled, told⟩ => ?_⟩
  exact ⟨enabled, fun off => (told (on off)).imp (due _ · ⟨rfl, rfl⟩) (due _ · ⟨rfl, rfl⟩)⟩

namespace Heard

/-- Other hooks may be due, as long as no listener is forgotten. -/
theorem redue (h : Heard p w) (out : p'.out = p.out)
    (attends : ∀ x, w.Attends p x → w.Attends p' x) : Heard p' w where
  known := h.known
  attends e a he ha alive := by
    obtain ⟨index, attending⟩ := h.attends e a he ha alive
    exact ⟨index, attends _ attending⟩
  prompt := h.prompt
  out := out ▸ h.out
  nodup := out ▸ h.nodup

/-- Where no listener is, nobody is to be told. -/
theorem settle {d : Due} {x : EntityId × Nat} (h : Heard (p.owe d) w)
    (only : ∀ y, d.Disables y → y = x)
    (free : ∀ slot, w.slot? x.1 x.2 = some slot → slot.component ≠ some .listener) :
    Heard p w := by
  refine h.redue rfl fun y attending => attending.congr rfl id fun d' hd disables => ?_
  rcases List.mem_cons.1 hd with rfl | hd
  · obtain ⟨slot, hslot, listener, -⟩ := attending
    obtain rfl := only y disables
    exact absurd listener (free slot hslot)
  · exact hd

/-- The scene is heard as before as long as no switch is turned. -/
theorem unswitched (h : Heard p w) (unswitched : Unswitched w w')
    (listener : w'.listener = w.listener) : Heard p w' := by
  have precedes := unswitched.precedes
  have from_eq : w'.heardFrom? = w.heardFrom? := by rw [heardFrom?, listener]; rfl
  have slot : ∀ (x : EntityId × Nat) slot, (w'.entity? x.1).isSome →
      w.slot? x.1 x.2 = some slot → ∃ slot', w'.slot? x.1 x.2 = some slot' := by
    intro x slot there hslot
    exact Option.isSome_iff_exists.1 (precedes.slot?_isSome there (by rw [hslot]; rfl))
  refine ⟨fun e he => ?_, fun e a' he ha' alive => ?_, fun x slot' hslot' hlistener => ?_,
    fun x hx => ?_, h.nodup⟩
  · obtain ⟨known, actor⟩ := h.known e (from_eq ▸ he)
    refine ⟨Nat.lt_of_lt_of_le known precedes.size, fun there => ?_⟩
    rw [precedes.actor?_isSome known there]
    exact actor (precedes.entity?_isSome known there)
  · have he : w.heardFrom? = some e := from_eq ▸ he
    obtain ⟨a, ha, states⟩ := unswitched.states.state e a' (h.known e he).1 ha'
    have state : a'.state = a.state := states.resolve_left alive
    obtain ⟨index, s, hslot, hlistener, told⟩ := h.attends e a he ha (state ▸ alive)
    obtain ⟨s', hslot'⟩ := slot (e, index) s (isSome_entity?_of_actor? ha') hslot
    obtain ⟨enabled, listens⟩ := unswitched.same (e, index) s s' hslot hslot'
    refine ⟨index, s', hslot', listens.2 hlistener, told.imp_right fun ⟨on, told⟩ => ?_⟩
    refine ⟨enabled.trans on, fun ⟨b, hb, off⟩ => told ⟨a, ha, ?_⟩⟩
    cases ha'.symm.trans hb
    exact state.symm.trans off
  · rcases unswitched.slot x slot' hslot' with ⟨s, hslot, -, deferred⟩ | ⟨-, -, deferred⟩
    · have listens := (unswitched.same x s slot' hslot hslot').2
      exact deferred.trans (h.prompt x s hslot (listens.1 hlistener))
    · exact deferred
  · obtain ⟨known, empty⟩ := h.out x hx
    refine ⟨Nat.lt_of_lt_of_le known precedes.size, fun there => ?_⟩
    obtain ⟨s, hslot, hempty⟩ := empty (precedes.entity?_isSome known there)
    obtain ⟨s', hslot'⟩ := slot x s there hslot
    refine ⟨s', hslot', ?_⟩
    rcases unswitched.slot x s' hslot' with ⟨t, ht, component, -⟩ | ⟨hnone, -⟩
    · cases hslot.symm.trans ht
      rw [hempty] at component
      exact Option.not_isSome_iff_eq_none.1 (by simp [component])
    · cases hnone.symm.trans hslot

/-- A change of one slot. -/
theorem modifySlot {f : Slot K B → Slot K B} (h : Heard p w)
    (attends : ∀ y, w.Attends p y → (w.modifySlot x.1 x.2 f).Attends p' y)
    (prompt : ∀ slot, w.slot? x.1 x.2 = some slot → (f slot).component = some .listener →
      (f slot).deferred = [])
    (out : ∀ y ∈ p'.out, y ≠ x ∧ y ∈ p.out ∨
      y = x ∧ ∃ slot, w.slot? x.1 x.2 = some slot ∧ (f slot).component = none)
    (nodup : p'.out.Nodup) : Heard p' (w.modifySlot x.1 x.2 f) := by
  have entity : ∀ e, ((w.modifySlot x.1 x.2 f).entity? e).isSome = (w.entity? e).isSome :=
    isSome_entity?_modifyEntity w x.1 _
  have size : (w.modifySlot x.1 x.2 f).entities.size = w.entities.size := Array.size_modify
  refine ⟨fun e he => ?_, fun e a he ha alive => ?_, fun y slot hslot listener => ?_,
    fun y hy => ?_, nodup⟩
  · rw [size, entity, actor?_modifySlot]
    exact h.known e he
  · rw [actor?_modifySlot] at ha
    obtain ⟨index, attending⟩ := h.attends e a he ha alive
    exact ⟨index, attends _ attending⟩
  · rw [slot?_modifySlot] at hslot
    split at hslot
    · rename_i here
      subst here
      obtain ⟨s, hs, rfl⟩ := Option.map_eq_some_iff.1 hslot
      exact prompt s hs listener
    · exact h.prompt y slot hslot listener
  · rw [size, entity, slot?_modifySlot]
    rcases out y hy with ⟨other, hy⟩ | ⟨rfl, slot, hslot, empty⟩
    · rw [if_neg other]
      exact h.out y hy
    · rw [if_pos rfl, hslot]
      exact ⟨index_lt_of_slot? hslot, fun _ => ⟨f slot, rfl, empty⟩⟩

/-- The slot of a component that is out is empty. -/
theorem empty_of_out (h : Heard p w) (hx : x ∈ p.out) {slot : Slot K B}
    (hslot : w.slot? x.1 x.2 = some slot) : slot.component = none := by
  obtain ⟨slot', hslot', empty⟩ := (h.out x hx).2 (isSome_entity?_of_slot? hslot)
  cases hslot.symm.trans hslot'
  exact empty

/-- A note in the journal turns no switch. -/
theorem record (h : Heard p w) (event : Event K B) : Heard p (w.record event) :=
  h.unswitched (.of_entities rfl) rfl

/-- A hook that is not for a listener is sent. -/
theorem of_sent {hook : Hook K} (sent : Sent Heard p x hook w)
    (free : ∀ slot, w.slot? x.1 x.2 = some slot → slot.component ≠ some .listener) :
    Heard p w := by
  cases sent with
  | follow on h => exact h.settle (fun _ disables => disables.1.symm) free
  | toggle on h => exact h.settle (fun _ disables => disables.1.symm) free
  | update _ _ _ h => exact h

/-- The slot of a component that is no listener, neither before nor after. -/
theorem modifyFree {f : Slot K B → Slot K B} (h : Heard p w) (due : p'.due = p.due)
    (free : ∀ slot, w.slot? x.1 x.2 = some slot → slot.component ≠ some .listener)
    (prompt : ∀ slot, w.slot? x.1 x.2 = some slot → (f slot).component = some .listener →
      (f slot).deferred = [])
    (out : ∀ y ∈ p'.out, y ≠ x ∧ y ∈ p.out ∨
      y = x ∧ ∃ slot, w.slot? x.1 x.2 = some slot ∧ (f slot).component = none)
    (nodup : p'.out.Nodup) : Heard p' (w.modifySlot x.1 x.2 f) := by
  refine h.modifySlot (fun y attending => ?_) prompt out nodup
  refine attending.congr ?_ switchedOff_modifySlots.1 fun d hd _ => due ▸ hd
  rw [slot?_modifySlot]
  refine if_neg fun here => ?_
  subst here
  obtain ⟨slot, hslot, listener, -⟩ := attending
  exact free slot hslot listener

/-! ## Switching -/

/-- Switching an actor makes it due that its components are told. -/
theorem switch (h : Heard p w) {e : EntityId} {a : Actor K} {on : Bool} {state : ActorState}
    (ha : w.actor? e = some a) (hstate : SceneM.switched a.state on = some state) :
    Heard (p.owe (.actor e on)) (w.modifyActor e fun a => { a with state }) := by
  have slot : ∀ x : EntityId × Nat,
      (w.modifyActor e fun a => { a with state }).slot? x.1 x.2 = w.slot? x.1 x.2 := by
    intro x
    rw [slot?, slots?_modifyActor]
    rfl
  have size : (w.modifyActor e fun a => { a with state }).entities.size = w.entities.size :=
    Array.size_modify
  have entity : ∀ x, ((w.modifyActor e fun a => { a with state }).entity? x).isSome
      = (w.entity? x).isSome := isSome_entity?_modifyEntity w e _
  refine ⟨fun x hx => ?_, fun x b hx hb alive => ?_, fun x s hs => ?_, fun x hx => ?_, h.nodup⟩
  · rw [size, entity, actor?_modifyActor]
    split
    · rw [Option.isSome_map]
      exact h.known x hx
    · exact h.known x hx
  · rw [actor?_modifyActor] at hb
    split at hb
    · rename_i here
      subst here
      obtain ⟨became, alive⟩ := SceneM.switched_eq_some hstate
      obtain ⟨index, s, hs, listener, told⟩ := h.attends x a hx ha alive
      refine ⟨index, s, (slot (x, index)).trans hs, listener, ?_⟩
      refine told.imp (List.mem_cons_of_mem _) fun told => ⟨told.1, fun off => .inl ?_⟩
      cases on with
      | false => exact List.mem_cons_self
      | true =>
        obtain ⟨c, hc, off⟩ := off
        rw [actor?_modifyActor, if_pos rfl, ha] at hc
        cases hc
        cases became.symm.trans off
    · rename_i other
      obtain ⟨index, attending⟩ := h.attends x b hx hb alive
      refine ⟨index, attending.congr (slot (x, index)) (fun off => ?_) fun d hd _ =>
        List.mem_cons_of_mem _ hd⟩
      rwa [SwitchedOff, actor?_modifyActor, if_neg other] at off
  · rw [slot] at hs
    exact h.prompt x s hs
  · rw [size, entity, slot]
    exact h.out x hx

/-- What is due of an actor is due for each of its components. -/
theorem recount {e : EntityId} {on : Bool} (h : Heard (p.owe (.actor e on)) w) :
    Heard (p.oweAll ((List.range (w.componentCount e)).map fun index => .follow (e, index) on))
      w := by
  refine h.redue rfl fun x ⟨slot, hslot, listener, told⟩ => ⟨slot, hslot, listener, ?_⟩
  refine told.imp (fun due => ?_) fun ⟨enabled, told⟩ => ⟨enabled, fun off => ?_⟩
  · exact List.mem_append_right _ (Pending.mem_of_owe due nofun)
  · rcases told off with due | due
    · rcases List.mem_cons.1 due with here | due
      · cases here
        refine .inr (List.mem_append_left _ (List.mem_map.2 ⟨x.2, List.mem_range.2 ?_, rfl⟩))
        exact lt_componentCount hslot
      · exact .inl (List.mem_append_right _ due)
    · exact .inr (List.mem_append_right _ (Pending.mem_of_owe due nofun))

/-- What is due of an actor need not be told to a component that is disabled. -/
theorem spare {on : Bool} (disabled : w.slotEnabled x.1 x.2 = false)
    (h : Heard (p.owe (.follow x on)) w) : Heard p w := by
  refine h.redue rfl fun y ⟨slot, hslot, listener, told⟩ => ⟨slot, hslot, listener, ?_⟩
  rcases told with due | ⟨enabled, told⟩
  · exact .inl (Pending.mem_of_owe due nofun)
  · refine .inr ⟨enabled, fun off => ?_⟩
    rcases told off with due | due
    · exact .inl (Pending.mem_of_owe due nofun)
    · refine .inr (Pending.mem_of_owe due fun here => ?_)
      cases here
      rw [slotEnabled_of_slot? hslot, enabled] at disabled
      cases disabled

/-- Switching a component makes it due that it is told. -/
theorem toggle (h : Heard p w) {slot : Slot K B} {on : Bool} (hslot : w.slot? x.1 x.2 = some slot)
    (changes : slot.enabled ≠ on) :
    Heard (p.owe (.toggle x on))
      (w.modifySlot x.1 x.2 fun slot => { slot with enabled := on }) := by
  refine h.modifySlot (fun y attending => ?_) (fun slot hslot => h.prompt x slot hslot)
    (fun y hy => ?_) h.nodup
  · by_cases here : y = x
    · subst here
      obtain ⟨s, hs, listener, told⟩ := attending
      cases hslot.symm.trans hs
      refine ⟨{ slot with enabled := on }, ?_, listener, .inl ?_⟩
      · rw [slot?_modifySlot, if_pos rfl, hslot]
        rfl
      · cases on with
        | false => exact List.mem_cons_self
        | true => exact List.mem_cons_of_mem _ (told.resolve_right fun told => changes told.1)
    · refine attending.congr ?_ switchedOff_modifySlots.1 fun d hd _ => List.mem_cons_of_mem _ hd
      rw [slot?_modifySlot, if_neg here]
  · by_cases here : y = x
    · subst here
      have empty : slot.component = none := h.empty_of_out hy hslot
      exact .inr ⟨rfl, slot, hslot, empty⟩
    · exact .inl ⟨here, hy⟩

/-! ## Components in and out of their slots -/

/-- A hook may be put off where the component is out of its slot. -/
theorem putOff {hook : Hook K} {slot : Slot K B} (hslot : w.slot? x.1 x.2 = some slot)
    (empty : slot.component = none) (sent : Sent Heard p x hook w) :
    Heard p (w.modifySlot x.1 x.2 fun slot =>
      { slot with deferred := slot.deferred ++ [hook] }) := by
  have free : ∀ s, w.slot? x.1 x.2 = some s → s.component = none := by
    intro s hs
    cases hslot.symm.trans hs
    exact empty
  have h := of_sent sent fun s hs => by rw [free s hs]; exact nofun
  refine h.modifyFree rfl (fun s hs => by rw [free s hs]; exact nofun) (fun s hs listener => ?_)
    (fun y hy => ?_) h.nodup
  · cases (free s hs).symm.trans listener
  · by_cases here : y = x
    · exact .inr ⟨here, slot, hslot, empty⟩
    · exact .inl ⟨here, hy⟩

/-- A component other than a listener may be taken out to act on a hook. -/
theorem take {hook : Hook K} {slot : Slot K B} {component : Component K B}
    (hslot : w.slot? x.1 x.2 = some slot) (present : slot.component = some component)
    (other : component ≠ .listener) (sent : Sent Heard p x hook w) :
    Heard (p.without x) (w.setComponent x.1 x.2 none) := by
  have free : ∀ s, w.slot? x.1 x.2 = some s → s.component ≠ some .listener := by
    intro s hs
    cases hslot.symm.trans hs
    rw [present]
    exact fun same => other (Option.some.inj same)
  have h := of_sent sent free
  have inside : x ∉ p.out := by
    intro hx
    cases present.symm.trans (h.empty_of_out hx hslot)
  refine h.modifyFree rfl free (fun s _ listener => nomatch listener) (fun y hy => ?_)
    (List.nodup_cons.2 ⟨inside, h.nodup⟩)
  rcases List.mem_cons.1 hy with rfl | hy
  · exact .inr ⟨rfl, slot, hslot, rfl⟩
  · exact .inl ⟨fun here => inside (here ▸ hy), hy⟩

/-- A component that is out may go on with hooks that were put off. -/
theorem resume {slot : Slot K B} (h : Heard (p.without x) w)
    (hslot : w.slot? x.1 x.2 = some slot) (deferred : List (Hook K)) :
    Heard (p.without x) (w.modifySlot x.1 x.2 fun slot => { slot with deferred }) := by
  have free : ∀ s, w.slot? x.1 x.2 = some s → s.component = none := fun s hs =>
    h.empty_of_out List.mem_cons_self hs
  refine h.modifyFree rfl (fun s hs => by rw [free s hs]; exact nofun) (fun s hs listener => ?_)
    (fun y hy => ?_) h.nodup
  · cases (free s hs).symm.trans listener
  · by_cases here : y = x
    · exact .inr ⟨here, slot, hslot, free slot hslot⟩
    · exact .inl ⟨here, hy⟩

/-- A component that is out may come back into its slot. -/
theorem put {slot : Slot K B} (h : Heard (p.without x) w) (component : Component K B)
    (hslot : w.slot? x.1 x.2 = some slot) (nothing : slot.deferred = []) :
    Heard p (w.setComponent x.1 x.2 (some component)) := by
  obtain ⟨outside, nodup⟩ := List.nodup_cons.1 h.nodup
  refine h.modifyFree rfl (fun s hs => ?_) (fun s hs _ => ?_) (fun y hy => ?_) nodup
  · rw [h.empty_of_out List.mem_cons_self hs]
    exact nofun
  · cases hslot.symm.trans hs
    exact nothing
  · exact .inl ⟨fun here => outside (here ▸ hy), List.mem_cons_of_mem _ hy⟩

/-- A component that is out may be dropped. -/
theorem drop (h : Heard (p.without x) w) (component : Component K B) :
    Heard p (w.dropComponent component) := by
  have dropped : Heard (p.without x) (w.dropComponent component) := by
    rw [dropComponent_eq]
    exact h.unswitched (.of_entities rfl) rfl
  exact ⟨dropped.known, dropped.attends, dropped.prompt,
    fun y hy => dropped.out y (List.mem_cons_of_mem _ hy), (List.nodup_cons.1 dropped.nodup).2⟩

end Heard

end World

/-! ## What a listener does when it is told -/

/-- What agrees on a view of the entities is heard from the same place. -/
theorem AgreesOn.listener {α : Type} {view : Entity K B → α} {w w' : World K B}
    (h : AgreesOn view w w') : w'.listener = w.listener := by
  rw [h.rest]

/-- Who is heard from has nothing to do with the scheduler. -/
theorem World.Hearing.scheduler {w w' : World K B} (h : w.Hearing w') :
    w'.scheduler = w.scheduler := by
  rw [h.settles.rest]

section Told

variable [Scalar K] [Behavior K B]

open World

omit [Scalar K] [Behavior K B] in
/-- A run of two programs in sequence is a run of each. -/
theorem run_bind_ok {perform : Performer K B} {R S : Type} {p : Program K B R}
    {f : R → Program K B S} {w w' : World K B} {s : S}
    (h : (p >>= f).run perform w = .ok s w') :
    ∃ r v, p.run perform w = .ok r v ∧ (f r).run perform v = .ok s w' := by
  change (p.bind f).run perform w = _ at h
  rw [Program.run_bind] at h
  exact bind_ok h

variable {perform : Performer K B}
  (ask : ∀ query, perform (.ask query) = do return (← get).answer query)
  (edit : ∀ x, perform (.edit x) = modifyGet fun w => w.apply x)

omit [Behavior K B] in
include ask in
/-- A run of a query is its answer. -/
theorem run_ask_ok {query : Query K} {w w' : World K B} {answer : query.Answer B}
    (h : (Program.ask query).run perform w = .ok answer w') : answer = w.answer query ∧ w' = w := by
  obtain ⟨a, v, hanswer, hpure⟩ := bind_ok h
  rw [ask] at hanswer
  cases hanswer
  cases hpure
  exact ⟨rfl, rfl⟩

include edit in
/-- A run of an edit is the edit. -/
theorem run_edit_ok {x : Edit K B} {w w' : World K B} {answer : x.Answer}
    (h : (Program.edit x).run perform w = .ok answer w') :
    answer = (w.apply x).1 ∧ w' = (w.apply x).2 := by
  obtain ⟨a, v, hanswer, hpure⟩ := bind_ok h
  rw [edit] at hanswer
  cases hanswer
  cases hpure
  exact ⟨rfl, rfl⟩

/-- A listener on an actor was told: the scene is not heard from there after it was disabled, and is
newly heard from there at most after a late update. -/
structure ListenerTold (e : EntityId) (hook : Hook K) (w w' : World K B) : Prop where
  hearing : w.Hearing w'
  withdrawn : hook = .disable → w'.heardFrom? ≠ some e
  turned : w'.heardFrom? = w.heardFrom? ∨ w'.heardFrom? = none ∨
    w'.heardFrom? = some e ∧ ∃ dt, hook = .lateUpdate dt

include ask edit

/-- What a listener does to who is heard from when it is told. -/
theorem listenerTold_react {e : EntityId} {hook : Hook K} {w w' : World K B}
    (hrun : (listenerReact e hook).run perform w = .ok () w') : ListenerTold e hook w w' := by
  have idle : w.Hearing w := (Looked.refl w).hearing
  cases hook with
  | enable | update dt =>
    cases hrun
    exact ⟨idle, nofun, .inl rfl⟩
  | disable =>
    obtain ⟨pose, v, hask, hrun⟩ := run_bind_ok hrun
    obtain ⟨rfl, rfl⟩ := run_ask_ok ask hask
    dsimp only [World.answer] at hrun
    cases found : v.listener with
    | none =>
      rw [found] at hrun
      cases hrun
      refine ⟨idle, fun _ heard => ?_, .inl rfl⟩
      rw [heardFrom?, found] at heard
      cases heard
    | some pose =>
      rw [found] at hrun
      dsimp only at hrun
      split at hrun
      · obtain ⟨-, rfl⟩ := run_edit_ok edit hrun
        exact ⟨(Looked.refl v).listening _, fun _ => nofun, .inr (.inl rfl)⟩
      · rename_i other
        cases hrun
        refine ⟨idle, fun _ heard => other ?_, .inl rfl⟩
        rwa [heardFrom?, found] at heard
  | lateUpdate dt =>
    obtain ⟨position, v, hposition, hrun⟩ := run_bind_ok hrun
    obtain ⟨-, rfl⟩ := run_edit_ok edit hposition
    have looked : w.Looked (w.apply (.worldPosition e)).2 := looked_localToWorld w e
    have same : (w.apply (.worldPosition e)).2.heardFrom? = w.heardFrom? := by
      rw [heardFrom?, looked.listener]
      rfl
    cases position with
    | none =>
      cases hrun
      exact ⟨looked.hearing, nofun, .inl same⟩
    | some position =>
      obtain ⟨rotation, v, hask, hrun⟩ := run_bind_ok hrun
      obtain ⟨-, rfl⟩ := run_ask_ok ask hask
      cases rotation with
      | none =>
        cases hrun
        exact ⟨looked.hearing, nofun, .inl same⟩
      | some rotation =>
        obtain ⟨-, rfl⟩ := run_edit_ok edit hrun
        exact ⟨looked.listening _, nofun, .inr (.inr ⟨rfl, dt, rfl⟩)⟩

omit ask edit in
/-- A component in its slot acts on the hook, and goes back if no hook was put off. -/
theorem answer_hook_ok {x : EntityId × Nat} {hook : Hook K} {w w' : World K B} {slot : Slot K B}
    {component : Component K B} (hslot : w.slot? x.1 x.2 = some slot)
    (present : slot.component = some component)
    (hrun : SceneM.answer perform (.hook x.1 x.2 hook) w = .ok () w') :
    ∃ component' v, (component.react x.1 hook).run perform
        ((w.setComponent x.1 x.2 none).record (.hook x.1 x.2 .began hook)) = .ok component' v ∧
      ∀ slot', v.slot? x.1 x.2 = some slot' → slot'.deferred = [] →
        w' = (v.record (.hook x.1 x.2 .ended hook)).setComponent x.1 x.2 (some component') := by
  unfold SceneM.answer at hrun
  obtain ⟨_, _, hget, hrun⟩ := bind_ok hrun
  cases hget
  rw [hslot] at hrun
  dsimp only at hrun
  rw [present] at hrun
  obtain ⟨_, _, htake, hserve⟩ := bind_ok hrun
  cases htake
  obtain ⟨rounds, limit⟩ := SceneM.exists_hookLimit
  rw [limit] at hserve
  unfold SceneM.serve at hserve
  obtain ⟨_, _, hbegan, hserve⟩ := bind_ok hserve
  cases hbegan
  obtain ⟨component', v, hreact, hserve⟩ := bind_ok hserve
  refine ⟨component', v, hreact, fun slot' hslot' nothing => ?_⟩
  obtain ⟨_, _, hended, hserve⟩ := bind_ok hserve
  cases hended
  obtain ⟨_, _, hget, hserve⟩ := bind_ok hserve
  cases hget
  rw [show (v.record (.hook x.1 x.2 .ended hook)).slot? x.1 x.2 = some slot' from hslot'] at hserve
  dsimp only at hserve
  rw [nothing] at hserve
  cases hserve
  rfl

/-- A listener at rest is told and is back in its slot at once. -/
theorem listenerTold_answer {x : EntityId × Nat} {hook : Hook K} {w w' : World K B}
    {slot : Slot K B} (hslot : w.slot? x.1 x.2 = some slot)
    (listener : slot.component = some .listener) (nothing : slot.deferred = [])
    (hrun : SceneM.answer perform (.hook x.1 x.2 hook) w = .ok () w') :
    ListenerTold x.1 hook w w' := by
  obtain ⟨component, v, hreact, back⟩ := answer_hook_ok hslot listener hrun
  obtain ⟨_, v', hlistened, hpure⟩ := run_bind_ok hreact
  cases hpure
  obtain ⟨hearing, withdrawn, turned⟩ := listenerTold_react ask edit hlistened
  have out : (w.setComponent x.1 x.2 none).Looked
      ((w.setComponent x.1 x.2 none).record (.hook x.1 x.2 .began hook)) := .record _ _
  have empty : v.slot? x.1 x.2 = some { slot with component := none } := by
    rw [hearing.slot?]
    refine (slot?_modifySlot w x.1 x.2 _ x).trans ?_
    rw [if_pos rfl, hslot]
    rfl
  have restored : Looked { w with listener := v.listener }
      ((v.record (.hook x.1 x.2 .ended hook)).setComponent x.1 x.2 (some .listener)) :=
    Looked.restored (((out.listening v.listener).trans hearing).trans (.record v _)) hslot listener
  rw [back _ empty nothing]
  exact ⟨restored, withdrawn, turned⟩

end Told

namespace World

variable {p q : Pending} {w w' : World K B} {x : EntityId × Nat}

/-- Only the actor from which the scene is heard may be another one. -/
theorem Heard.hearing (h : Heard q w) (hearing : w.Hearing w') (out : q.out = p.out)
    (known : ∀ e, w'.heardFrom? = some e → e.index < w.entities.size ∧
      ((w.entity? e).isSome → (w.actor? e).isSome))
    (attends : ∀ e a, w'.heardFrom? = some e → w.actor? e = some a → a.state ≠ .destroyed →
      ∃ index, w.Attends p (e, index)) : Heard p w' := by
  have size : w'.entities.size = w.entities.size := hearing.settles.size
  have entity : ∀ e, (w'.entity? e).isSome = (w.entity? e).isSome := by
    intro e
    have views := congrArg Option.isSome (hearing.settles.entity e)
    rwa [Option.isSome_map, Option.isSome_map] at views
  refine ⟨fun e he => ?_, fun e a he ha alive => ?_, fun y slot hslot => ?_, fun y hy => ?_,
    out ▸ h.nodup⟩
  · rw [size, entity, hearing.actor?]
    exact known e he
  · rw [hearing.actor?] at ha
    obtain ⟨index, attending⟩ := attends e a he ha alive
    refine ⟨index, attending.congr (hearing.slot? e index) (fun off => ?_) fun _ hd _ => hd⟩
    rwa [SwitchedOff, hearing.actor?] at off
  · rw [hearing.slot?] at hslot
    exact h.prompt y slot hslot
  · rw [size, entity, hearing.slot?]
    exact h.out y (out ▸ hy)

/-- A listener that is told withdraws if it has to. -/
theorem Heard.told [Scalar K] {hook : Hook K} {slot : Slot K B}
    (hslot : w.slot? x.1 x.2 = some slot) (listener : slot.component = some .listener)
    (sent : Sent Heard p x hook w) (told : ListenerTold x.1 hook w w') : Heard p w' := by
  have stays : w'.heardFrom? = w.heardFrom? ∨ w'.heardFrom? = none →
      ∀ e, w'.heardFrom? = some e → w.heardFrom? = some e := by
    intro turned e he
    rcases turned with turned | turned <;> rw [turned] at he
    · exact he
    · cases he
  -- A hook that was due is for this listener, from which the scene is not heard any more.
  have seen : ∀ {d : Due} {on : Bool}, Heard (p.owe d) w → hook = .ofSwitch on →
      (∀ y, d.Disables y → y = x ∧ on = false) → Heard p w' := by
    intro d on h hhook only
    have turned := told.turned.imp_right fun turned => turned.resolve_right (by
      rintro ⟨-, dt, late⟩
      rw [hhook] at late
      cases on <;> cases late)
    refine h.hearing told.hearing rfl (fun e he => h.known e (stays turned e he))
      fun e a he ha alive => ?_
    obtain ⟨index, attending⟩ := h.attends e a (stays turned e he) ha alive
    refine ⟨index, attending.congr rfl id fun d' hd disables => Pending.mem_of_owe hd ?_⟩
    rintro rfl
    obtain ⟨here, rfl⟩ := only _ disables
    subst here
    exact told.withdrawn hhook he
  cases sent with
  | follow on h => exact seen h rfl fun _ disables => ⟨disables.1.symm, disables.2⟩
  | toggle on h => exact seen h rfl fun _ disables => ⟨disables.1.symm, disables.2⟩
  | update _ active enabled h =>
    refine h.hearing told.hearing rfl (fun e he => ?_) fun e a he ha alive => ?_
    · rcases or_assoc.2 told.turned with turned | ⟨here, -⟩
      · exact h.known e (stays turned e he)
      · cases here.symm.trans he
        exact ⟨index_lt_of_slot? hslot, fun _ => (isActive_iff.1 active).1⟩
    · rcases or_assoc.2 told.turned with turned | ⟨here, -⟩
      · exact h.attends e a (stays turned e he) ha alive
      · cases here.symm.trans he
        have on := not_switchedOff_of_isActive active
        rw [slotEnabled_of_slot? hslot] at enabled
        exact ⟨x.2, slot, hslot, listener, .inr ⟨enabled, fun off => absurd off on⟩⟩

variable [Scalar K] [Behavior K B]

/-- Other edits leave who the scene is heard from alone. -/
theorem listener_apply (w : World K B) {x : Edit K B} (mute : Request.Mute (.edit x)) :
    (w.apply x).2.listener = w.listener := by
  cases x with
  | spawn spec =>
    change (w.spawn spec).2.listener = w.listener
    unfold World.spawn
    dsimp only
    split
    · exact (onlyPlaces_setParent _ _ _).listener
    · rfl
  | despawn e =>
    change (w.despawn e).2.listener = w.listener
    rw [despawn_eq]
  | destroy e =>
    change (w.destroy e).listener = w.listener
    have flagged : ∀ (l : List EntityId) (w : World K B), (l.foldl (fun w e =>
        w.modifyActor e fun a => { a with state := .destroyed }) w).listener = w.listener := by
      intro l
      induction l with
      | nil => exact fun w => rfl
      | cons e l ih => exact fun w => ih _
    exact flagged _ w
  | add e component =>
    change (w.addComponent e component).2.listener = w.listener
    unfold addComponent
    split
    · rfl
    · rw [dropComponent_eq]
      rfl
  | retarget e target duration done =>
    change (w.retarget e target duration done).2.listener = w.listener
    rcases w.retarget_cases e target duration done with same | ⟨index, m, -, -, moved⟩
    · rw [same]
    · rw [moved, dropComponent_eq]
      rfl
  | changeAnchoring e change =>
    change (w.changeAnchoring e change).listener = w.listener
    unfold changeAnchoring
    split
    · exact (settles_invalidate _ e).listener
    · rfl
  | setViewport viewport =>
    exact (AgreesOn.foldl settles_invalidate { w with viewport := some viewport }).listener
  | send e action =>
    change (w.send e action).2.listener = w.listener
    unfold send
    split <;> rfl
  | publishListener => exact absurd mute id
  | spawnTransform | spawnBare | setTimeScale | setUpdateEnabled | issueWait | nameWait
  | completeWait | tick | setClockScale | draw => rfl
  | _ =>
    refine (onlyPlaces_apply w ?_).listener
    trivial

/-- What is due of listeners is kept in order by everything that mute programs do. -/
theorem owed_heard : Owed (Scope.mute K B) (fun _ => true) (· = .listener) Heard where
  edit x mute h := h.unswitched (.apply _ x) (listener_apply _ mute)
  record event _ h := h.record event
  rest _ _ h := h.unswitched (.of_entities rfl) rfl
  reclaim e h := by
    refine h.unswitched (.reclaim _ e) ?_
    rw [World.reclaim, despawn_eq]
    exact (onlyPlaces_detach _ e).listener
  switch ha hstate h := (h.switch ha hstate).record _
  recount h := h.recount
  spare disabled h := h.spare disabled
  toggle hslot changes _ h := h.toggle hslot changes
  gone hnone sent := .of_sent sent fun slot hslot => nomatch hnone.symm.trans hslot
  putOff hslot empty sent := (Heard.putOff hslot empty sent).record _
  take hslot present other sent := (Heard.take hslot present other sent).record _
  resume hslot _ h := (h.resume hslot _).record _
  put component hslot nothing h := h.put component hslot nothing
  drop component _ h := h.drop component
  told {_ _ _ _ _ _ slot _} ask edit hslot present alone sent hrun := by
    have listener : slot.component = some .listener := alone ▸ present
    have nothing : slot.deferred = [] := by
      cases sent with
      | follow _ h | toggle _ h | update _ _ _ h => exact h.prompt _ _ hslot listener
    have told := listenerTold_answer ask edit hslot listener nothing hrun
    exact ⟨told.hearing.scheduler, .told hslot listener sent told⟩

end World

/-! ## From whom a scene is heard -/

section Scenes

variable {B : Type} [Behavior Float32 B]

open World

/-- In a scene that begins with nobody in it and is heard from nobody, whatever happens to it, the
actor from which it is heard has an enabled listener and is active by itself, so that it is active
unless an actor above it is not; or it has been destroyed. -/
theorem heard_actor_is_on (mute : MuteBehavior Float32 B) {w₀ w : World Float32 B}
    (entities : w₀.entities = #[]) (unheard : w₀.heardFrom? = none)
    (scheduler : w₀.scheduler = none)
    (steps : Relation.ReflTransGen (SceneStep (Scope.mute Float32 B).fit) w₀ w) {e : EntityId}
    (heard : w.heardFrom? = some e) :
    w.entity? e = none ∨ ∃ a, w.actor? e = some a ∧ (a.state = .destroyed ∨
      a.state = .active ∧ (∃ index, w.Ear e index) ∧ (w.isActive e = true ∨ w.Shadowed e)) := by
  have h : w.Heard .none := by
    clear heard
    have lasts := owed_heard.lasting mute.behaved
    suffices fits : Fitting (Scope.mute Float32 B) Heard .none w from fits.2
    induction steps with
    | refl =>
      refine ⟨fun s hs => ?_, fun e he => ?_, fun e a he => ?_, fun x slot hslot => ?_, nofun, .nil⟩
      · cases scheduler.symm.trans hs
      · cases unheard.symm.trans he
      · cases unheard.symm.trans he
      · rw [slot?, slots?, entity?, entities] at hslot
        cases hslot
    | tail _ step ih => exact lasts.step step ih
  cases there : w.entity? e with
  | none => exact .inl rfl
  | some entity =>
    obtain ⟨a, ha⟩ := Option.isSome_iff_exists.1
      ((h.known e heard).2 (by rw [there, Option.isSome_some]))
    refine .inr ⟨a, ha, ?_⟩
    by_cases destroyed : a.state = .destroyed
    · exact .inl destroyed
    · obtain ⟨index, slot, hslot, listener, told⟩ := h.attends e a heard ha destroyed
      obtain ⟨enabled, told⟩ := told.resolve_left List.not_mem_nil
      have on : a.state = .active := by
        cases hstate : a.state with
        | active => rfl
        | inactive => exact absurd (told ⟨a, ha, hstate⟩) (by rintro (due | due) <;> cases due)
        | destroyed => exact absurd hstate destroyed
      exact .inr ⟨on, ⟨index, slot, hslot, enabled, listener⟩, isActive_or_shadowed ha on⟩

end Scenes

/-! ## A singer on a stage -/

/-- A singer with a listener, on a stage. -/
def recital : Program Float32 Empty Unit := do
  let stage ← Program.edit (.spawn (.named "stage"))
  let singer ← Program.edit (.spawn { ActorSpec.named "singer" with parent := some stage })
  let _ ← Program.edit (.add singer .listener)
  return ()

/-- The singer is heard after a frame. Then something is done, and another frame goes by. -/
def evening (ending : Program Float32 Empty Unit) : SceneM Float32 Empty Unit := do
  let () ← recital.run SceneM.perform
  let () ← SceneM.frame 1
  let () ← ending.run SceneM.perform
  SceneM.frame 1

/-- The last frame of an evening. -/
theorem exists_evening {ending : Program Float32 Empty Unit}
    (fit : (Scope.mute Float32 Empty).fit Unit ending) {check : World Float32 Empty → Bool}
    (run : passes (evening ending) .bare fun _ w => check w) :
    ∃ w w' : World Float32 Empty,
      Relation.ReflTransGen (SceneStep (Scope.mute Float32 Empty).fit) .bare w ∧
      SceneM.frame 1 w = .ok () w' ∧ check w' = true := by
  obtain ⟨_, w', hrun, checked⟩ := exists_of_passes run
  obtain ⟨_, w₁, hrecital, hrun⟩ := bind_ok hrun
  obtain ⟨_, w₂, hframe, hrun⟩ := bind_ok hrun
  obtain ⟨_, w, hending, hrun⟩ := bind_ok hrun
  have fit' : (Scope.mute Float32 Empty).fit Unit recital := by
    refine only_bind (only_edit trivial) fun _ => only_bind (only_edit trivial) fun _ => ?_
    exact only_bind (only_edit trivial) fun _ => only_pure _
  refine ⟨w, w', ?_, hrun, checked⟩
  exact ((Relation.ReflTransGen.single (.program fit' hrecital)).tail (.frame hframe)).tail
    (.program fit hending)

/-- When the stage is switched off after the first frame, the singer is still heard after the
second one, and its own state is active. -/
theorem heard_actor_is_on_stage :
    MuteBehavior Float32 Empty ∧ ∃ w : World Float32 Empty,
      Relation.ReflTransGen (SceneStep (Scope.mute Float32 Empty).fit) .bare w ∧
      w.heardFrom? = some ⟨1⟩ ∧ w.isActive ⟨1⟩ = false ∧ (∃ index, w.Ear ⟨1⟩ index) ∧
      w.Shadowed ⟨1⟩ := by
  have mute : MuteBehavior Float32 Empty := ⟨fun b => b.elim, fun _ => only_pure _⟩
  have fit : (Scope.mute Float32 Empty).fit Unit (Program.request (.setActive ⟨0⟩ false)) :=
    ⟨trivial, fun _ => trivial⟩
  have run : passes (evening (Program.request (.setActive ⟨0⟩ false))) .bare fun _ w =>
      decide (w.heardFrom? = some ⟨1⟩) && !w.isActive ⟨1⟩ &&
        decide ((w.actor? ⟨1⟩).map (·.state) = some .active) := by
    decide +kernel
  obtain ⟨w', w, steps, hframe, checked⟩ := exists_evening fit run
  simp only [Bool.and_eq_true, decide_eq_true_eq, Bool.not_eq_true'] at checked
  obtain ⟨⟨heard, off⟩, hstate⟩ := checked
  obtain ⟨a, ha, on⟩ := Option.map_eq_some_iff.1 hstate
  have steps := steps.tail (.frame hframe)
  refine ⟨mute, w, steps, heard, off, ?_⟩
  rcases heard_actor_is_on mute rfl rfl rfl steps heard with gone | ⟨a', ha', turned⟩
  · have there := World.isSome_entity?_of_actor? ha
    rw [gone] at there
    cases there
  · cases ha.symm.trans ha'
    rcases turned with destroyed | ⟨-, ear, active | shadowed⟩
    · cases on.symm.trans destroyed
    · rw [off] at active
      cases active
    · exact ⟨ear, shadowed⟩

/-- When the singer is destroyed after the first frame, it is still heard after the second one,
when it has gone. -/
theorem heard_actor_may_be_gone : ¬ ∀ w w' : World Float32 Empty,
    Relation.ReflTransGen (SceneStep (Scope.mute Float32 Empty).fit) .bare w →
    SceneM.frame 1 w = .ok () w' → ∀ e, w'.heardFrom? = some e →
      (w'.entity? e).isSome ∧ w'.isActive e = true ∧ ∃ index, w'.Ear e index := by
  intro claim
  have run : passes (evening (Program.edit (.destroy ⟨1⟩))) .bare fun _ w =>
      decide (w.heardFrom? = some ⟨1⟩) && (w.entity? ⟨1⟩).isNone := by
    decide +kernel
  have fit : (Scope.mute Float32 Empty).fit Unit (Program.edit (.destroy ⟨1⟩)) := only_edit trivial
  obtain ⟨w, w', steps, hframe, checked⟩ := exists_evening fit run
  simp only [Bool.and_eq_true, decide_eq_true_eq, Option.isNone_iff_eq_none] at checked
  obtain ⟨heard, gone⟩ := checked
  have there := (claim w w' steps hframe ⟨1⟩ heard).1
  rw [gone] at there
  cases there

end SheepScene
