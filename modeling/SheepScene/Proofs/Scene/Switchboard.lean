import SheepScene.Proofs.Scene.Dues
import SheepScene.Proofs.Scene.Endings
import SheepScene.Proofs.Scene.Moments

/-!
# Components that are told of switches and leave it at that

An actor may have components that run no other component when they are told of a switch, and leave
its switches alone. While such components are told, one after the other, all that happens to the
switches is what was asked for, and each component that is told acts on its hook and comes to an end
before the next one is told (`SceneM.exists_setActive`, `SceneM.exists_setEnabled`). What else stays
as it is depends on what the components do otherwise, and is given by a relation of worlds
(`Background`).
-/

set_option autoImplicit false

namespace SheepScene

variable {K B : Type}

namespace World

/-- The own state of an actor. -/
def state? (w : World K B) (e : EntityId) : Option ActorState :=
  (w.actor? e).map (·.state)

/-- The components of an actor with their switches, in the order in which they were added. -/
def panel (w : World K B) (e : EntityId) : List (ComponentKind × Bool) :=
  ((w.slots? e).getD #[]).toList.map fun slot => (slot.kind, slot.enabled)

/-- Worlds in which an actor has the same components and is in the same state. -/
structure SameOwn (w w' : World K B) (e : EntityId) : Prop where
  slots : w'.slots? e = w.slots? e
  state : w'.state? e = w.state? e

/-- Components of a kind are in the slots of an actor, and no hook is put off. -/
def AtEase (kind : Component K B → Prop) (w : World K B) (e : EntityId) : Prop :=
  ∀ index slot, w.slot? e index = some slot →
    (∃ c, slot.component = some c ∧ kind c) ∧ slot.deferred = []

variable {w v : World K B} {e : EntityId}

/-- A switch belongs to the slot at its place. -/
theorem getElem?_panel (w : World K B) (e : EntityId) (index : Nat) :
    (w.panel e)[index]? = (w.slot? e index).map fun slot => (slot.kind, slot.enabled) := by
  unfold panel slot?
  cases w.slots? e <;> simp

/-- Whether a component is told of its actor can be seen from the switches. -/
theorem slotEnabled_eq (w : World K B) (e : EntityId) :
    w.slotEnabled e = fun index => ((w.panel e)[index]?.map (·.2)).getD false := by
  funext index
  rw [getElem?_panel, Option.map_map]
  unfold slotEnabled slot?
  cases w.slots? e <;> rfl

/-- There are as many switches as components. -/
theorem length_panel (w : World K B) (e : EntityId) : (w.panel e).length = w.componentCount e := by
  unfold panel componentCount
  cases w.slots? e <;> simp

/-- Switches depend on the slots alone. -/
theorem panel_congr (slots : v.slots? e = w.slots? e) : v.panel e = w.panel e := by
  rw [panel, slots, panel]

/-- Panels after a slot has been changed. -/
theorem getElem?_panel_modifySlot (w : World K B) (e : EntityId) (index : Nat)
    (f : Slot K B → Slot K B) (x : EntityId) (i : Nat) :
    ((w.modifySlot e index f).panel x)[i]? = if (x, i) = (e, index)
      then (w.slot? e index).map fun slot => ((f slot).kind, (f slot).enabled)
      else (w.panel x)[i]? := by
  rw [getElem?_panel, getElem?_panel, slot?_modifySlot w e index f (x, i)]
  split
  · rw [Option.map_map]
    rfl
  · rfl

/-- Taking a component out of its slot or putting one in leaves all switches alone. -/
theorem panel_setComponent (w : World K B) (e : EntityId) (index : Nat)
    (c : Option (Component K B)) (x : EntityId) :
    (w.setComponent e index c).panel x = w.panel x := by
  refine List.ext_getElem? fun i => ?_
  rw [getElem?_panel_modifySlot]
  split
  · rename_i here
    cases here
    exact (getElem?_panel w e index).symm
  · rfl

/-- Keeping what is an actor's own is transitive. -/
theorem SameOwn.trans {u : World K B} (h : w.SameOwn v e) (h' : v.SameOwn u e) : w.SameOwn u e :=
  ⟨h'.slots.trans h.slots, h'.state.trans h.state⟩

/-- What is an actor's own depends on its entity alone. -/
theorem SameOwn.of_entity (entity : v.entity? e = w.entity? e) : w.SameOwn v e := by
  refine ⟨?_, ?_⟩
  · rw [slots?, slots?, entity]
  · rw [state?, state?, actor?, actor?, entity]

/-- What is an actor's own is kept where the entities are. -/
theorem SameOwn.of_entities (entities : v.entities = w.entities) : w.SameOwn v e := by
  refine of_entity ?_
  rw [entity?, entity?, entities]

/-- What is an actor's own is kept where only placements and links change. -/
theorem SameOwn.of_onlyPlaces (h : OnlyPlaces w v) : w.SameOwn v e :=
  ⟨h.slots? e, congrArg _ (h.actor? e)⟩

/-- An actor is at ease as long as its slots are the same. -/
theorem AtEase.congr {kind : Component K B → Prop} (h : w.AtEase kind e)
    (slots : v.slots? e = w.slots? e) : v.AtEase kind e := fun index slot there =>
  h index slot ((slot?_congr slots index).symm.trans there)

end World

/-- The stages of a hook that a component is told of a switch by, and that it acts on at once. -/
def Stage.told (e : EntityId) (index : Nat) (on : Bool) : List (Stage K) :=
  [⟨e, index, .began, .ofSwitch on⟩, ⟨e, index, .ended, .ofSwitch on⟩]

variable [Scalar K] [Behavior K B]

open World

/-- At a moment when no component is executing, every actor is at ease. -/
theorem AtMoment.atEase {fit : Fitness K B} {w : World K B} {kind : Component K B → Prop}
    {e : EntityId} (h : AtMoment fit w) (suits : ∀ index slot c, w.slot? e index = some slot →
      slot.component = some c → kind c) : w.AtEase kind e := by
  intro index slot there
  obtain ⟨present, idle⟩ := h.rested (e, index) slot there
  obtain ⟨c, hc⟩ := Option.isSome_iff_exists.1 present
  exact ⟨⟨c, hc, suits index slot c there hc⟩, idle⟩

/-! ## What happens in the meantime -/

/-- What requests of a kind leave as it is: they run no component, they leave the components and the
own state of an actor alone, and worlds are related by what they do otherwise. -/
structure Background (e : EntityId) (allowed : Request K B → Prop)
    (related : World K B → World K B → Prop) : Prop where
  refl : ∀ w, related w w
  trans : ∀ {w v w'}, related w v → related v w' → related w w'
  record : ∀ w event, related w (w.record event)
  setComponent : ∀ w index c, related w (w.setComponent e index c)
  simple : ∀ request, allowed request → ¬ request.Compound
  edit : ∀ w x, allowed (.edit x) → related w (w.apply x).2
  own : ∀ (w : World K B) x, allowed (.edit x) → e.index < w.entities.size →
    w.SameOwn (w.apply x).2 e

/-- Components of a kind make such requests only when they are told of a switch, and remain of that
kind. -/
def Composed (e : EntityId) (allowed : Request K B → Prop) (kind : Component K B → Prop) : Prop :=
  ∀ c, kind c → ∀ on,
    (c.react e (.ofSwitch on)).Only allowed ∧ (c.react e (.ofSwitch on)).Yields kind

/-- Worlds between which some components of an actor were told of switches, and nothing else
happened to its switches. -/
structure Briefed (related : World K B → World K B → Prop) (kind : Component K B → Prop)
    (e : EntityId) (w w' : World K B) (told : List (Stage K)) : Prop where
  related : related w w'
  known : e.index < w'.entities.size
  ease : w'.AtEase kind e
  panel : w'.panel e = w.panel e
  state : w'.state? e = w.state? e
  stages : w'.stages = w.stages ++ told

section Informing

variable {e : EntityId} {allowed : Request K B → Prop} {related : World K B → World K B → Prop}
  {kind : Component K B → Prop} {w v w' : World K B} {told told' : List (Stage K)}

variable (background : Background e allowed related)
include background

/-- Briefings one after the other are a briefing. -/
theorem Briefed.trans (h : Briefed related kind e w v told)
    (h' : Briefed related kind e v w' told') : Briefed related kind e w w' (told ++ told') where
  related := background.trans h.related h'.related
  known := h'.known
  ease := h'.ease
  panel := h'.panel.trans h.panel
  state := h'.state.trans h.state
  stages := by rw [h'.stages, h.stages, List.append_assoc]

/-- What programs keep in the background, from a world on. -/
theorem Background.calm (w : World K B) : Calm allowed fun v => related w v ∧
    e.index < v.entities.size ∧ w.SameOwn v e ∧ v.stages = w.stages where
  simple := background.simple
  edit := by
    rintro x v h ⟨related, known, same, stages⟩
    exact ⟨background.trans related (background.edit v x h),
      Nat.lt_of_lt_of_le known (precedes_apply v x).size, same.trans (background.own v x h known),
      (stages_apply v x).trans stages⟩
  echo := by
    rintro v tag request answer ⟨related, known, same, stages⟩
    exact ⟨background.trans related (background.record v _), known,
      same.trans (.of_entities rfl), (stages_record_aside v rfl).trans stages⟩

variable (composed : Composed e allowed kind) (depth : Nat)
include composed

/-- A component that is told of a switch acts on it and goes back into its slot. -/
theorem SceneM.exists_told (ease : w.AtEase kind e) {index : Nat} {slot : Slot K B}
    (there : w.slot? e index = some slot) (on : Bool) :
    ∃ w', SceneM.respond (depth + 1) (.hook e index (.ofSwitch on)) w = .ok () w' ∧
      Briefed related kind e w w' (Stage.told e index on) := by
  obtain ⟨⟨c, present, suits⟩, idle⟩ := ease index slot there
  obtain ⟨only, yields⟩ := composed c suits on
  let out : World K B := (w.setComponent e index none).record (.hook e index .began (.ofSwitch on))
  have slots : ∀ (v : World K B) f i, (v.modifySlot e index f).slot? e i
      = if i = index then (v.slot? e index).map f else v.slot? e i := by
    intro v f i
    rw [slot?_modifySlot v e index f (e, i)]
    simp only [Prod.mk.injEq, true_and]
  have gone : out.slot? e index = some { slot with component := none } :=
    (slots w _ index).trans (by rw [if_pos rfl, there]; rfl)
  have start : related w out :=
    background.trans (background.setComponent w index none) (background.record _ _)
  have known : e.index < out.entities.size :=
    Nat.lt_of_lt_of_eq (index_lt_of_slot? there) Array.size_modify.symm
  obtain ⟨c', v, ⟨around, known', ⟨same, state⟩, stages⟩, suits', run⟩ :=
    SceneM.exists_hook (background.calm out) depth only there present
      ⟨background.refl out, known, .of_entities rfl, rfl⟩
      (fun v hv => (slot?_congr hv.2.2.1.slots index).trans gone) idle
  refine ⟨_, run, ?_, ?_, fun i slot' hslot' => ?_, ?_, ?_, ?_⟩
  · exact background.trans (background.trans (background.trans start around)
      (background.record v _)) (background.setComponent _ index _)
  · exact Nat.lt_of_lt_of_eq known' Array.size_modify.symm
  · replace hslot' := (slots (v.record _) _ i).symm.trans hslot'
    split at hslot'
    · obtain ⟨before, hbefore, rfl⟩ := Option.map_eq_some_iff.1 hslot'
      cases ((slot?_congr same index).trans gone).symm.trans hbefore
      exact ⟨⟨c', rfl, suits' kind yields⟩, idle⟩
    · rename_i other
      refine ease i slot' ?_
      have before : out.slot? e i = some slot' := (slot?_congr same i).symm.trans hslot'
      exact ((slots w _ i).trans (if_neg other)).symm.trans before
  · rw [panel_setComponent]
    exact (panel_congr same).trans (panel_setComponent w e index none e)
  · rw [state?, actor?_modifySlot]
    exact state.trans (congrArg _ (actor?_modifySlot w e index _ e))
  · change (v.record _).stages = _
    rw [stages_record_hook, stages]
    exact (congrArg (· ++ _) (stages_record_hook (w.setComponent e index none) _ _ _ _)).trans
      (List.append_assoc _ _ _)

/-- Of the components at some places of an actor, one after the other, those that are enabled are
told. -/
theorem SceneM.exists_dispatchAll (ease : w.AtEase kind e) (known : e.index < w.entities.size)
    (on : Bool) (indices : List Nat) :
    ∃ w', indices.forM (SceneM.dispatch (SceneM.respond (depth + 1)) e (.ofSwitch on)) w
        = .ok () w' ∧
      Briefed related kind e w w'
        ((indices.filter (w.slotEnabled e)).flatMap (Stage.told e · on)) := by
  induction indices generalizing w with
  | nil => exact ⟨w, rfl, background.refl w, known, ease, rfl, rfl, (List.append_nil _).symm⟩
  | cons index rest ih =>
    have dispatched : SceneM.dispatch (SceneM.respond (depth + 1)) e (.ofSwitch on) index w
        = if w.slotEnabled e index then SceneM.respond (depth + 1) (.hook e index (.ofSwitch on)) w
          else .ok () w := by
      unfold SceneM.dispatch
      refine (bind_of_ok (t := w) rfl).trans ?_
      cases w.slotEnabled e index <;> rfl
    cases on' : w.slotEnabled e index with
    | false =>
      obtain ⟨w', run, briefed⟩ := ih ease known
      rw [on', if_neg nofun] at dispatched
      refine ⟨w', (bind_of_ok dispatched).trans run, ?_⟩
      rw [List.filter_cons_of_neg (by simp [on'])]
      exact briefed
    | true =>
      obtain ⟨slot, there⟩ := exists_slot_of_slotEnabled on'
      obtain ⟨v, run, briefed⟩ := SceneM.exists_told background composed depth ease there on
      obtain ⟨w', run', briefed'⟩ := ih briefed.ease briefed.known
      rw [on', if_pos rfl, run] at dispatched
      refine ⟨w', (bind_of_ok dispatched).trans run', ?_⟩
      have enabled : v.slotEnabled e = w.slotEnabled e := by
        rw [slotEnabled_eq, briefed.panel, ← slotEnabled_eq]
      rw [List.filter_cons_of_pos on', List.flatMap_cons, ← enabled]
      exact briefed.trans background briefed'

/-- An actor that is switched is so, and its enabled components are told in their order. -/
theorem SceneM.exists_setActive (ease : w.AtEase kind e) {a : Actor K} (there : w.actor? e = some a)
    {on : Bool} {state : ActorState} (switched : SceneM.switched a.state on = some state)
    (observed : (Behavior.observe (if on then .activated e else .deactivated e) :
      Program K B Unit).Only allowed) :
    ∃ w', SceneM.setActive (SceneM.respond (depth + 1)) e on w = .ok () w' ∧
      Briefed related kind e (w.modifyActor e fun a => { a with state }) w'
        (((List.range (w.componentCount e)).filter (w.slotEnabled e)).flatMap
          (Stage.told e · on)) := by
  let v : World K B := w.modifyActor e fun a => { a with state }
  have known : e.index < v.entities.size := by
    obtain ⟨entity, hentity, -⟩ := Option.bind_eq_some_iff.1 there
    exact Nat.lt_of_lt_of_eq (index_lt_of_entity? hentity) Array.size_modify.symm
  have slots : v.slots? e = w.slots? e := slots?_modifyActor w e _ e
  obtain ⟨u, emitted, around, known', ⟨same, state'⟩, stages⟩ :=
    SceneM.exists_emit (background.calm v) depth observed (w := v)
      ⟨background.record v _, known, .of_entities rfl, stages_record_aside v rfl⟩
  obtain ⟨w', run, briefed⟩ := SceneM.exists_dispatchAll background composed depth
    (ease.congr (same.trans slots)) known' on (List.range (u.componentCount e))
  refine ⟨w', ?_, ?_⟩
  · unfold SceneM.setActive
    refine (bind_of_ok (t := w) rfl).trans ?_
    rw [there, Option.bind_some, switched]
    exact (bind_of_ok (t := v) rfl).trans ((bind_of_ok emitted).trans ((bind_of_ok rfl).trans run))
  · have panel : u.panel e = w.panel e := panel_congr (same.trans slots)
    rw [slotEnabled_eq, ← length_panel, panel, length_panel, ← slotEnabled_eq] at briefed
    have announced : Briefed related kind e v u [] := ⟨around, known',
      ease.congr (same.trans slots), panel_congr same, state',
      stages.trans (List.append_nil _).symm⟩
    exact announced.trans background briefed

/-- The first component of a type that is switched is so, and is told, whether its actor is active
or not. -/
theorem SceneM.exists_setEnabled (ease : w.AtEase kind e) {type : ComponentKind} {index : Nat}
    {slot : Slot K B} (first : w.first? e type = some index) (there : w.slot? e index = some slot)
    {on : Bool} (other : slot.enabled ≠ on) :
    ∃ w', SceneM.setEnabled (SceneM.respond (depth + 1)) e type on w = .ok () w' ∧
      Briefed related kind e (w.modifySlot e index fun slot => { slot with enabled := on }) w'
        (Stage.told e index on) := by
  have slots := slot?_modifySlot w e index fun slot => { slot with enabled := on }
  have there' := (slots (e, index)).trans (by rw [if_pos rfl, there])
  have ease' : (w.modifySlot e index fun slot => { slot with enabled := on }).AtEase kind e := by
    intro i slot' hslot'
    replace hslot' := (slots (e, i)).symm.trans hslot'
    split at hslot'
    · obtain ⟨before, hbefore, rfl⟩ := Option.map_eq_some_iff.1 hslot'
      exact ease index before hbefore
    · exact ease i slot' hslot'
  obtain ⟨w', run, briefed⟩ := SceneM.exists_told background composed depth ease' there' on
  exact ⟨w', (setEnabled_other first there other).trans run, briefed⟩

end Informing

/-! ## Movers and listeners -/

/-- Components that keep to some requests keep to more of them. -/
theorem Composed.mono {e : EntityId} {allowed allowed' : Request K B → Prop}
    {kind : Component K B → Prop} (h : Composed e allowed kind)
    (more : ∀ request, allowed request → allowed' request) : Composed e allowed' kind :=
  fun c suits on => ⟨(h c suits on).1.mono more, (h c suits on).2⟩

/-- The components that scenes come with. -/
def Component.BuiltIn : Component K B → Prop
  | .mover _ | .listener => True
  | .custom _ => False

omit [Scalar K] in
/-- Where there are no custom components, all are. -/
theorem Component.builtIn : ∀ c : Component K Empty, c.BuiltIn
  | .mover _ | .listener => trivial
  | .custom b => b.elim

/-- What movers and listeners do when they are told of a switch, and remarks. -/
def Edit.Modest : Edit K B → Prop
  | .placeInWorld .. | .completeWait _ | .publishListener _ | .log .. | .note _ | .probed .. => True
  | _ => False

/-- Such edits, and queries. -/
def Request.Modest : Request K B → Prop
  | .ask _ => True
  | .edit x => x.Modest
  | _ => False

omit [Scalar K] [Behavior K B] in
/-- Requests that only read and remark are modest. -/
theorem Request.Reads.modest {request : Request K B} (h : request.Reads) : request.Modest := by
  cases request with
  | ask => trivial
  | edit x => cases x <;> first | exact trivial | exact absurd h id
  | _ => exact absurd h id

omit [Behavior K B] in
/-- What a mover does when it is told of a switch is modest. -/
theorem Mover.modest_switch (m : Mover K) (e : EntityId) (on : Bool) :
    (m.react e (.ofSwitch on) : Program K B (Mover K)).Only Request.Modest := by
  have release : ∀ m : Mover K, (m.release : Program K B Unit).Only Request.Modest := by
    intro m
    unfold Mover.release
    split
    · exact Program.only_edit trivial
    · exact Program.only_pure ()
  cases on with
  | true =>
    change m.onEnable.Only Request.Modest
    unfold Mover.onEnable
    split
    · exact Program.only_bind (release m) fun _ => Program.only_pure _
    · exact Program.only_pure _
  | false =>
    change (m.onDisable e).Only Request.Modest
    unfold Mover.onDisable
    split
    · exact Program.only_pure _
    · refine Program.only_bind (Program.only_edit trivial) fun _ => ?_
      exact Program.only_bind (release m) fun _ => Program.only_pure _

omit [Behavior K B] in
/-- What a listener does when it is told of a switch is modest. -/
theorem modest_listenerSwitch (e : EntityId) (on : Bool) :
    (listenerReact e (.ofSwitch on) : Program K B Unit).Only Request.Modest := by
  cases on with
  | true => exact Program.only_pure _
  | false =>
    refine Program.only_bind (Program.only_ask trivial) fun pose => ?_
    cases pose with
    | none => exact Program.only_pure _
    | some pose =>
      dsimp only
      split
      · exact Program.only_edit trivial
      · exact Program.only_pure _

/-- Movers and listeners run no other component when they are told of a switch. -/
theorem composed_builtIn (e : EntityId) :
    Composed e (Request.Modest (K := K) (B := B)) Component.BuiltIn := by
  intro c builtIn on
  cases c with
  | mover m =>
    exact ⟨Program.only_bind (m.modest_switch e on) fun _ => Program.only_pure _,
      Program.yields_bind _ fun _ => trivial⟩
  | listener =>
    exact ⟨Program.only_bind (modest_listenerSwitch e on) fun _ => Program.only_pure _,
      Program.yields_bind _ fun _ => trivial⟩
  | custom b => exact absurd builtIn id

end SheepScene
