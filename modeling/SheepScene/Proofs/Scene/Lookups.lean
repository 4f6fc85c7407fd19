import SheepScene.Proofs.Scene.Cells

/-!
# Looking components up

The place of a component is looked up among the slots, by the types that they are of, and the
component itself among those that are in their slots. So while the first component of a type is
executing its place is still found, but the lookup of the component passes over it and finds the
next one of the type that is not executing (`lookups_pass_over_executing`). A mover that is given a
new move is looked up in that way, and the one that is enabled for it by its place, so these may be
different ones.
-/

set_option autoImplicit false

namespace SheepScene

variable {K B : Type}

/-! ## Slots of a type -/

/-- The place that is found is the first one that is looked for. -/
theorem findIdx?_eq_some_iff_getElem? {α : Type} {xs : Array α} {p : α → Bool} {i : Nat} :
    xs.findIdx? p = some i ↔ (∃ x, xs[i]? = some x ∧ p x = true) ∧
      ∀ j < i, ¬ ∃ x, xs[j]? = some x ∧ p x = true := by
  rw [Array.findIdx?_eq_some_iff_getElem]
  constructor
  · rintro ⟨hlt, here, before⟩
    refine ⟨⟨xs[i], Array.getElem?_eq_getElem hlt, here⟩, ?_⟩
    rintro j hj ⟨x, there, hx⟩
    obtain ⟨_, rfl⟩ := Array.getElem?_eq_some_iff.1 there
    exact before j hj hx
  · rintro ⟨⟨x, there, hx⟩, before⟩
    obtain ⟨hlt, rfl⟩ := Array.getElem?_eq_some_iff.1 there
    exact ⟨hlt, hx, fun j hj hx' =>
      before j hj ⟨xs[j], Array.getElem?_eq_getElem (Nat.lt_trans hj hlt), hx'⟩⟩

namespace Slots

section Places

variable {slots : Array (Slot K B)} {kind : ComponentKind} {i : Nat}

/-- There is a slot of a type, whether its component is executing or not. -/
def OfKind (slots : Array (Slot K B)) (kind : ComponentKind) (i : Nat) : Prop :=
  ∃ slot, slots[i]? = some slot ∧ slot.kind = kind

/-- There is a slot of a type and its component is not executing. -/
def Holds (slots : Array (Slot K B)) (kind : ComponentKind) (i : Nat) : Prop :=
  ∃ slot, slots[i]? = some slot ∧ slot.kind = kind ∧ slot.component.isSome

/-- The component at a place, unless it is executing. -/
def at? (slots : Array (Slot K B)) (i : Nat) : Option (Component K B) :=
  slots[i]?.bind (·.component)

/-- A slot that holds a component of a type is one of the type. -/
theorem Holds.ofKind (h : Holds slots kind i) : OfKind slots kind i :=
  let ⟨slot, there, same, _⟩ := h
  ⟨slot, there, same⟩

/-- A slot that holds a component of a type has it at its place. -/
theorem Holds.at? (h : Holds slots kind i) : ∃ c, at? slots i = some c := by
  obtain ⟨slot, there, -, holds⟩ := h
  rw [Slots.at?, there, Option.bind_some]
  exact Option.isSome_iff_exists.1 holds

/-- The index of a type is the place of the first slot of the type. -/
theorem index?_eq_some_iff :
    index? slots kind = some i ↔ OfKind slots kind i ∧ ∀ j < i, ¬ OfKind slots kind j := by
  unfold index? OfKind
  simp only [findIdx?_eq_some_iff_getElem?, beq_iff_eq]

/-- The index of what is present is the place of the first slot of the type that is not executing.
-/
theorem presentIndex?_eq_some_iff :
    presentIndex? slots kind = some i ↔ Holds slots kind i ∧ ∀ j < i, ¬ Holds slots kind j := by
  unfold presentIndex? Holds
  simp only [findIdx?_eq_some_iff_getElem?, Bool.and_eq_true, beq_iff_eq]

/-- There is no index of what is present exactly if all components of the type are executing. -/
theorem presentIndex?_eq_none_iff :
    presentIndex? slots kind = none ↔ ∀ i, ¬ Holds slots kind i := by
  unfold presentIndex? Holds
  rw [Array.findIdx?_eq_none_iff]
  constructor
  · rintro none i ⟨slot, there, same, holds⟩
    have not := none slot (Array.mem_of_getElem? there)
    rw [same, holds, beq_self_eq_true] at not
    cases not
  · intro none slot hslot
    obtain ⟨i, there⟩ := Array.mem_iff_getElem?.1 hslot
    refine Bool.eq_false_iff.2 fun found => none i ⟨slot, there, ?_⟩
    rwa [Bool.and_eq_true, beq_iff_eq] at found

/-- What is present is the component at that place. -/
theorem present?_eq : present? slots kind = (presentIndex? slots kind).bind (at? slots) :=
  Option.bind_assoc ..

/-- What is not executing is looked up unless all components of the type are. -/
theorem present?_eq_none_iff : present? slots kind = none ↔ ∀ i, ¬ Holds slots kind i := by
  rw [← presentIndex?_eq_none_iff, present?_eq]
  cases found : presentIndex? slots kind with
  | none => exact ⟨fun _ => rfl, fun _ => rfl⟩
  | some i =>
    obtain ⟨c, hc⟩ := (presentIndex?_eq_some_iff.1 found).1.at?
    rw [Option.bind_some, hc]
    exact ⟨fun h => (nomatch h), fun h => (nomatch h)⟩

/-- Where the first slot of a type holds its component, that is the one that is looked up. -/
theorem presentIndex?_of_holds (first : index? slots kind = some i) (holds : Holds slots kind i) :
    presentIndex? slots kind = some i :=
  presentIndex?_eq_some_iff.2
    ⟨holds, fun j hj before => (index?_eq_some_iff.1 first).2 j hj before.ofKind⟩

/-- Where it is executing, one behind it is. -/
theorem lt_presentIndex? {j : Nat} (first : index? slots kind = some i)
    (executing : ¬ Holds slots kind i) (found : presentIndex? slots kind = some j) : i < j := by
  have holds := (presentIndex?_eq_some_iff.1 found).1
  by_contra reached
  rcases Nat.lt_or_eq_of_le (Nat.le_of_not_lt reached) with before | rfl
  · exact (index?_eq_some_iff.1 first).2 j before holds.ofKind
  · exact executing holds

/-- The lookup finds the component of the first slot of a type, or nothing, just when it does not
pass over it. -/
theorem present?_eq_first_iff : present? slots kind = (index? slots kind).bind (at? slots) ↔
    presentIndex? slots kind = none ∨ presentIndex? slots kind = index? slots kind := by
  constructor
  · intro agree
    by_contra differ
    obtain ⟨passes, other⟩ := not_or.1 differ
    obtain ⟨j, found⟩ := Option.ne_none_iff_exists'.1 passes
    obtain ⟨holds, before⟩ := presentIndex?_eq_some_iff.1 found
    obtain ⟨c, hc⟩ := holds.at?
    rw [present?_eq, found, Option.bind_some, hc] at agree
    obtain ⟨i, first, present⟩ := Option.bind_eq_some_iff.1 agree.symm
    obtain ⟨slot, there, hslot⟩ := Option.bind_eq_some_iff.1 present
    obtain ⟨slot', there', same⟩ := (index?_eq_some_iff.1 first).1
    cases there.symm.trans there'
    have here : Holds slots kind i := ⟨slot, there, same, by rw [hslot, Option.isSome_some]⟩
    exact other ((presentIndex?_of_holds first here).trans first.symm)
  · rintro (none | same)
    · rw [present?_eq, none, Option.bind_none]
      cases first : index? slots kind with
      | none => rfl
      | some i =>
        obtain ⟨slot, there, same⟩ := (index?_eq_some_iff.1 first).1
        refine .symm (Option.eq_none_iff_forall_ne_some.2 fun c hc => ?_)
        rw [Option.bind_some, at?, there, Option.bind_some] at hc
        exact presentIndex?_eq_none_iff.1 none i ⟨slot, there, same, by rw [hc, Option.isSome_some]⟩
    · rw [present?_eq, same]

end Places

/-! ## Components of a type -/

section Types

variable [Behavior K B] {slots : Array (Slot K B)}

/-- Every component is in a slot of its type. -/
def Typed (slots : Array (Slot K B)) : Prop :=
  ∀ slot ∈ slots, ∀ c, slot.component = some c → c.kind = slot.kind

/-- The first component in a slot that is itself of a type. -/
def lookup? (slots : Array (Slot K B)) (kind : ComponentKind) : Option (Component K B) :=
  slots.findSome? fun slot => slot.component.filter (·.kind == kind)

/-- Where components are in slots of their types, it makes no difference which type is asked for,
that of the component or that of its slot. -/
theorem Typed.lookup?_eq (typed : Typed slots) (kind : ComponentKind) :
    lookup? slots kind = present? slots kind := by
  have present : present? slots kind = (slots.find? fun slot =>
      slot.kind == kind && slot.component.isSome).bind (·.component) := by
    rw [Array.find?_eq_bind_findIdx?_getElem?]
    rfl
  obtain ⟨list⟩ := slots
  rw [present, lookup?, List.findSome?_toArray, List.find?_toArray]
  clear present
  replace typed : ∀ slot ∈ list, ∀ c, slot.component = some c → c.kind = slot.kind :=
    fun slot hslot => typed slot (List.mem_toArray.2 hslot)
  induction list with
  | nil => rfl
  | cons slot list ih =>
    have ih := ih fun slot hslot => typed slot (List.mem_cons_of_mem _ hslot)
    rw [List.findSome?_cons, List.find?_cons]
    cases holds : slot.component with
    | none =>
      rw [Option.filter_none, Option.isSome_none, Bool.and_false]
      exact ih
    | some c =>
      rw [Option.filter_some, typed slot List.mem_cons_self c holds, Option.isSome_some,
        Bool.and_true]
      cases slot.kind == kind with
      | false => exact ih
      | true => exact holds.symm

/-- A component in a slot of a mover is one. -/
theorem Typed.mover (typed : Typed slots) {i : Nat} (holds : Holds slots .mover i) :
    ∃ m, at? slots i = some (.mover m) := by
  obtain ⟨slot, there, same, isSome⟩ := holds
  obtain ⟨c, hc⟩ := Option.isSome_iff_exists.1 isSome
  have kind := (typed slot (Array.mem_of_getElem? there) c hc).trans same
  rw [at?, there, Option.bind_some, hc]
  cases c with
  | mover m => exact ⟨m, rfl⟩
  | listener | custom b => cases kind

end Types

end Slots

open Slots in
/-- While components are in slots of their types, the lookup of a component by its own type finds
the one in the first slot of the type that is not executing. The place of a type is the first slot
of that type, executing or not. If its component is not executing, that is the one that is looked
up; if it is, the lookup goes on behind it and finds the next one, or nothing when all components of
the type are executing. So the lookup agrees with the place just when it finds nothing or finds the
component there. The components of an actor are looked up in this way, and it is the mover that is
looked up that starts a new move: nothing else is done to the slots. -/
theorem lookups_pass_over_executing [Scalar K] [Behavior K B] {slots : Array (Slot K B)}
    (typed : Typed slots) (kind : ComponentKind) :
    (lookup? slots kind = (presentIndex? slots kind).bind (at? slots) ∧
      (∀ i, presentIndex? slots kind = some i ↔
        Holds slots kind i ∧ ∀ j < i, ¬ Holds slots kind j) ∧
      (lookup? slots kind = none ↔ ∀ i, ¬ Holds slots kind i)) ∧
    (∀ first, index? slots kind = some first ↔
      OfKind slots kind first ∧ ∀ j < first, ¬ OfKind slots kind j) ∧
    (∀ first, index? slots kind = some first →
      (Holds slots kind first → lookup? slots kind = at? slots first) ∧
      (¬ Holds slots kind first → ∀ i, presentIndex? slots kind = some i → first < i)) ∧
    (lookup? slots kind = (index? slots kind).bind (at? slots) ↔
      presentIndex? slots kind = none ∨ presentIndex? slots kind = index? slots kind) ∧
    ∀ (w : World K B) e, w.slots? e = some slots →
      w.component? e kind = lookup? slots kind ∧
      ∀ target duration done,
        (presentIndex? slots .mover = none → w.retarget e target duration done = (false, w)) ∧
        ∀ i, presentIndex? slots .mover = some i → ∃ m, at? slots i = some (.mover m) ∧
          w.retarget e target duration done = (true, (w.dropComponent (.mover m)).setComponent e i
            (some (.mover (m.retargeted target duration done)))) := by
  rw [typed.lookup?_eq]
  refine ⟨⟨present?_eq, fun i => presentIndex?_eq_some_iff, present?_eq_none_iff⟩,
    fun i => index?_eq_some_iff, fun i first => ⟨fun holds => ?_, fun executing j =>
    lt_presentIndex? first executing⟩, present?_eq_first_iff, fun w e there => ⟨?_, ?_⟩⟩
  · rw [present?_eq, presentIndex?_of_holds first holds, Option.bind_some]
  · rw [World.component?, there, Option.bind_some]
  · intro target duration done
    have place : ((w.slots? e).bind fun slots => presentIndex? slots .mover)
        = presentIndex? slots .mover := by
      rw [there, Option.bind_some]
    refine ⟨fun none => ?_, fun i found => ?_⟩
    · unfold World.retarget
      rw [place, none]
    · obtain ⟨m, hm⟩ := typed.mover (presentIndex?_eq_some_iff.1 found).1
      have looked : w.component? e .mover = some (.mover m) := by
        rw [World.component?, there, Option.bind_some, present?_eq, found, Option.bind_some, hm]
      exact ⟨m, hm, World.retarget_of_looked (place.trans found) looked target duration done⟩

/-! ## An executing component -/

/-- The slots of an actor with two listeners, the first of which is executing. -/
def crowded : Array (Slot Float32 Empty) :=
  #[⟨.listener, true, none, []⟩, ⟨.listener, true, some .listener, []⟩]

/-- The crowded slots hold what they are for. -/
theorem typed_crowded : Slots.Typed crowded := by
  intro slot hslot c hc
  rcases List.mem_pair.1 (Array.mem_toList_iff.2 hslot) with rfl | rfl
  · cases hc
  · cases hc
    rfl

/-- The index of listeners in the crowded slots is that of the first. -/
theorem index?_crowded : Slots.index? crowded .listener = some 0 := by
  decide +kernel

/-- The listener present in the crowded slots is the second. -/
theorem presentIndex?_crowded : Slots.presentIndex? crowded .listener = some 1 := by
  decide +kernel

/-- The second listener is looked up, and the first one is named. -/
theorem lookups_pass_over_executing_crowded : Slots.Typed crowded ∧
    Slots.index? crowded .listener = some 0 ∧
      Slots.lookup? crowded .listener = Slots.at? crowded 1 := by
  refine ⟨typed_crowded, index?_crowded, ?_⟩
  rw [(lookups_pass_over_executing typed_crowded .listener).1.1, presentIndex?_crowded]
  rfl

/-- The lookup may find a component although the first one of the type is executing. -/
theorem lookups_may_disagree : ¬ ∀ slots : Array (Slot Float32 Empty), Slots.Typed slots →
    ∀ kind, Slots.lookup? slots kind = (Slots.index? slots kind).bind (Slots.at? slots) := by
  intro agree
  have same := agree crowded typed_crowded .listener
  rw [typed_crowded.lookup?_eq, Slots.present?_eq, index?_crowded, presentIndex?_crowded] at same
  cases same

end SheepScene
