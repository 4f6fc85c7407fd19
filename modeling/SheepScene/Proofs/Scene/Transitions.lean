import SheepScene.Proofs.Scene.Destruction
import SheepScene.Proofs.Scene.Sending
import SheepScene.Proofs.Scene.Switchboard

/-!
# What components are told

The components of an actor are told to enable and to disable themselves by two kinds of switches:
every component has one of its own, and the actor has one for all of them. A component is told once
for every change of its own switch, and once for every change of the switch of its actor that it is
enabled at, and never otherwise (`Toggle.hook?`). For any sequence of such requests this gives what
every component is told, in which order the components of an actor are told, and how the switches
stand in the end (`hooks_fire_once_per_transition`), provided that the components do not call back
(`Request.Aloof`).
-/

set_option autoImplicit false

namespace SheepScene

variable {K B : Type}

/-! ## Switches and who is told -/

/-- What turns the switches of an actor: the actor is switched, or the first of its components of a
type, or it is flagged for removal. -/
inductive Toggle where
  | actor (on : Bool)
  | component (kind : ComponentKind) (on : Bool)
  | destroy

namespace Toggle

/-- The requests. -/
def program (e : EntityId) : Toggle → Program K B Unit
  | .actor on => Program.request (.setActive e on)
  | .component kind on => Program.request (.setEnabled e kind on)
  | .destroy => Program.edit (.destroy e)

/-- The own state of the actor afterwards. -/
def state : Toggle → ActorState → ActorState
  | .actor true, .inactive => .active
  | .actor false, .active => .inactive
  | .destroy, _ => .destroyed
  | _, before => before

/-- Whether a component of a type is enabled afterwards. -/
def flag (kind : ComponentKind) : Toggle → Bool → Bool
  | .component switched on, enabled => if switched = kind then on else enabled
  | _, enabled => enabled

/-- What a component of a type is told, on an actor that is in a state. -/
def hook? (kind : ComponentKind) (state : ActorState) (enabled : Bool) : Toggle → Option Bool
  | .component switched on => if switched = kind ∧ enabled ≠ on then some on else none
  | .actor true => if state = .inactive ∧ enabled = true then some true else none
  | .actor false => if state = .active ∧ enabled = true then some false else none
  | .destroy => none

/-- The switches of the components of an actor afterwards. -/
def panel (t : Toggle) (before : List (ComponentKind × Bool)) : List (ComponentKind × Bool) :=
  before.map fun c => (c.1, t.flag c.1 c.2)

/-- Who is told what, in the order in which the components were added. -/
def round (t : Toggle) (state : ActorState) (panel : List (ComponentKind × Bool)) :
    List (Nat × Bool) :=
  (List.range panel.length).filterMap fun index =>
    panel[index]?.bind fun c => (t.hook? c.1 state c.2).map (index, ·)

/-- Who is told what by each of a sequence of toggles. -/
def rounds (state : ActorState) (panel : List (ComponentKind × Bool)) :
    List Toggle → List (List (Nat × Bool))
  | [] => []
  | t :: ts => t.round state panel :: rounds (t.state state) (t.panel panel) ts

/-- What a component of a type is told by a sequence of toggles. -/
def received (kind : ComponentKind) (state : ActorState) (enabled : Bool) : List Toggle → List Bool
  | [] => []
  | t :: ts => (t.hook? kind state enabled).toList ++
      received kind (t.state state) (t.flag kind enabled) ts

end Toggle

/-! ## Components that do not call back -/

/-- Edits that leave an actor alone with regard to its components and its state. -/
def Edit.Spares (e : EntityId) : Edit K B → Prop
  | .destroy _ => False
  | .despawn x | .add x _ | .retarget x .. => x ≠ e
  | _ => True

/-- Queries, and edits that leave an actor alone. -/
def Request.Aloof (e : EntityId) : Request K B → Prop
  | .ask _ => True
  | .edit x => x.Spares e
  | _ => False

namespace World

variable {w : World K B} {e : EntityId}

/-- Changing an entity, which may be the actor if it keeps its components and its state. -/
theorem SameOwn.modifyEntity {y : EntityId} {f : Entity K B → Entity K B}
    (same : y = e → ∀ x, (f x).slots = x.slots ∧
      (f x).actor.map (·.state) = x.actor.map (·.state)) : w.SameOwn (w.modifyEntity y f) e := by
  by_cases here : e = y
  · refine ⟨?_, ?_⟩
    · rw [slots?, slots?, entity?_modifyEntity, if_pos here, Option.bind_map]
      exact congrArg _ (funext fun x => (same here.symm x).1)
    · rw [state?, state?, actor?, actor?, entity?_modifyEntity, if_pos here, Option.bind_map,
        Option.map_bind, Option.map_bind]
      exact congrArg _ (funext fun x => (same here.symm x).2)
  · exact .of_entity (by rw [entity?_modifyEntity, if_neg here])

/-- An actor is not touched by edits that spare it. -/
theorem SameOwn.apply [Scalar K] [Behavior K B] (known : e.index < w.entities.size)
    {x : Edit K B} (spares : x.Spares e) : w.SameOwn (w.apply x).2 e := by
  have created : ∀ entity, w.SameOwn (w.create entity).2 e := fun entity =>
    .of_entity (by rw [entity?_create, if_neg (Nat.ne_of_lt known)])
  cases x with
  | spawn spec =>
    change w.SameOwn (w.spawn spec).2 e
    unfold World.spawn
    dsimp only
    split
    · refine SameOwn.trans ?_ (.of_onlyPlaces (onlyPlaces_setParent _ _ _))
      exact (created _).trans (.of_entities rfl)
    · exact (created _).trans (.of_entities rfl)
  | spawnTransform | spawnBare => exact created _
  | despawn y => exact .of_entity (by
      rw [World.apply, entity?_despawn, if_neg (Ne.symm spares)])
  | setTimeScale | setUpdateEnabled =>
    exact .modifyEntity fun _ x => ⟨rfl, by rw [Option.map_map]; rfl⟩
  | destroy => exact absurd spares id
  | add y component =>
    change w.SameOwn (w.addComponent y component).2 e
    unfold addComponent
    split
    · exact .modifyEntity fun here => absurd here spares
    · exact .of_entities (by rw [dropComponent_eq]; rfl)
  | retarget y target duration done =>
    change w.SameOwn (w.retarget y target duration done).2 e
    rcases w.retarget_cases y target duration done with same | ⟨index, m, -, -, moved⟩
    · rw [same]
      exact .of_entities rfl
    · rw [moved]
      have dropped : w.SameOwn (w.dropComponent (.mover m)) e :=
        .of_entities (by rw [dropComponent_eq])
      exact dropped.trans (.modifyEntity fun here => absurd here spares)
  | changeAnchoring y change =>
    change w.SameOwn (w.changeAnchoring y change) e
    unfold changeAnchoring
    split
    · refine SameOwn.trans ?_ (.of_onlyPlaces (settles_invalidate _ y).sameLinks.onlyPlaces)
      exact .modifyEntity fun _ x => ⟨rfl, rfl⟩
    · exact .of_entities rfl
  | setViewport viewport =>
    have settles : Settles { w with viewport := some viewport }
        (w.apply (.setViewport viewport)).2 := AgreesOn.foldl settles_invalidate _
    have resized : w.SameOwn { w with viewport := some viewport } e := .of_entities rfl
    exact resized.trans (.of_onlyPlaces settles.sameLinks.onlyPlaces)
  | send y action =>
    change w.SameOwn (w.send y action).2 e
    unfold send
    split <;> exact .of_entities rfl
  | issueWait | nameWait | completeWait | tick | setClockScale | publishListener | draw =>
    exact .of_entities rfl
  | _ => exact .of_onlyPlaces (onlyPlaces_apply w trivial)

/-- An actor has no component of a type of which it has no first one. -/
theorem ne_of_first?_eq_none {kind : ComponentKind} (none : w.first? e kind = none)
    {index : Nat} {c : ComponentKind × Bool} (there : (w.panel e)[index]? = some c) :
    c.1 ≠ kind := by
  rintro rfl
  rw [getElem?_panel] at there
  obtain ⟨slot, hslot, rfl⟩ := Option.map_eq_some_iff.1 there
  obtain ⟨first, -, -, found, -⟩ := exists_first hslot
  cases none.symm.trans found

end World

/-- Requests that are aloof from an actor leave its components and its state as they are. -/
theorem background_aloof [Scalar K] [Behavior K B] (e : EntityId) :
    Background e (Request.Aloof (K := K) (B := B) e) fun _ _ => True where
  refl _ := trivial
  trans _ _ := trivial
  record _ _ := trivial
  setComponent _ _ _ := trivial
  simple request aloof compound := by
    cases request <;> first | exact aloof | exact compound
  edit _ _ _ := trivial
  own _ _ spares known := .apply known spares

/-! ## Who is told by one toggle -/

/-- Of the places up to a bound only one counts. -/
theorem filterMap_range_if {α : Type} {n index : Nat} (h : index < n) (v : Option α) :
    ((List.range n).filterMap fun i => if i = index then v else none) = v.toList := by
  induction n with
  | zero => omega
  | succ n ih =>
    rw [List.range_succ, List.filterMap_append]
    rcases Nat.lt_succ_iff_lt_or_eq.1 h with lt | rfl
    · rw [ih lt]
      simp [Nat.ne_of_gt lt]
    · have before : ((List.range index).filterMap fun i => if i = index then v else none) = [] :=
        List.filterMap_eq_nil_iff.2 fun i hi => if_neg (Nat.ne_of_lt (List.mem_range.1 hi))
      rw [before]
      cases v <;> simp

namespace Toggle

variable {state after : ActorState} {panel : List (ComponentKind × Bool)} {on : Bool}

/-- An actor that can be switched comes to the state it is switched to. -/
theorem state_actor (switched : SceneM.switched state on = some after) :
    (Toggle.actor on).state state = after := by
  cases state <;> cases on <;> cases switched <;> rfl

/-- When an actor is switched its enabled components are told. -/
theorem hook?_actor (switched : SceneM.switched state on = some after) (kind : ComponentKind)
    (enabled : Bool) :
    (Toggle.actor on).hook? kind state enabled = if enabled then some on else none := by
  cases state <;> cases on <;> cases switched <;> cases enabled <;> rfl

/-- An actor that is in the state already, or destroyed, stays as it is and nobody is told. -/
theorem actor_of_none (idle : SceneM.switched state on = none) :
    (Toggle.actor on).state state = state ∧
      ∀ kind enabled, (Toggle.actor on).hook? kind state enabled = none := by
  cases state <;> cases on <;> first | exact ⟨rfl, fun _ _ => rfl⟩ | cases idle

/-- Nobody is told where no component is to be told anything. -/
theorem round_eq_nil {t : Toggle}
    (silent : ∀ (index : Nat) c, panel[index]? = some c → t.hook? c.1 state c.2 = none) :
    t.round state panel = [] := by
  refine List.filterMap_eq_nil_iff.2 fun index _ => ?_
  cases hc : panel[index]? with
  | none => rfl
  | some c => rw [Option.bind_some, silent index c hc, Option.map_none]

/-- When an actor is switched, its enabled components are told. -/
theorem round_actor (switched : SceneM.switched state on = some after) :
    (Toggle.actor on).round state panel = ((List.range panel.length).filter fun index =>
      (panel[index]?.map (·.2)).getD false).map (·, on) := by
  rw [round, ← List.filterMap_eq_map', List.filterMap_filter]
  refine List.filterMap_congr fun index _ => ?_
  cases panel[index]? with
  | none => rfl
  | some c =>
    obtain ⟨kind, enabled⟩ := c
    rw [Option.bind_some, hook?_actor switched]
    cases enabled <;> rfl

section Component

variable {kind : ComponentKind} {index : Nat} {enabled : Bool}
  (there : panel[index]? = some (kind, enabled)) (distinct : (panel.map (·.1)).Nodup)
include there distinct

/-- Among components of different types there is one of a type. -/
theorem eq_of_distinct {i : Nat} {c : ComponentKind × Bool} (hc : panel[i]? = some c)
    (same : c.1 = kind) : i = index := by
  have bound : i < (panel.map (·.1)).length := by
    rw [List.length_map]
    exact (List.getElem?_eq_some_iff.1 hc).1
  refine (List.getElem?_inj bound distinct).1 ?_
  rw [List.getElem?_map, List.getElem?_map, hc, there, Option.map_some, same]
  rfl

/-- When a component is switched, nobody else is told. -/
theorem round_component (on : Bool) (state : ActorState) :
    (Toggle.component kind on).round state panel
      = if enabled = on then [] else [(index, on)] := by
  have here : ∀ i ∈ List.range panel.length,
      (panel[i]?.bind fun c => ((Toggle.component kind on).hook? c.1 state c.2).map (i, ·))
        = if i = index then (if enabled = on then none else some (index, on)) else none := by
    intro i _
    by_cases same : i = index
    · subst same
      rw [there, if_pos rfl]
      by_cases already : enabled = on <;> simp [hook?, already]
    · rw [if_neg same]
      cases hc : panel[i]? with
      | none => rfl
      | some c =>
        have other : kind ≠ c.1 := fun is => same (eq_of_distinct there distinct hc is.symm)
        simp [hook?, other]
  rw [round, List.filterMap_congr here, filterMap_range_if (List.getElem?_eq_some_iff.1 there).1]
  split <;> rfl

/-- When a component is switched, no other switch is turned. -/
theorem getElem?_panel_component (on : Bool) (i : Nat) :
    ((Toggle.component kind on).panel panel)[i]?
      = if i = index then some (kind, on) else panel[i]? := by
  rw [Toggle.panel, List.getElem?_map]
  by_cases same : i = index
  · subst same
    simp [there, flag]
  · rw [if_neg same]
    cases hc : panel[i]? with
    | none => rfl
    | some c =>
      have other : kind ≠ c.1 := fun is => same (eq_of_distinct there distinct hc is.symm)
      simp [flag, other]

/-- Switching a component to where it stands turns nothing. -/
theorem panel_component_same : (Toggle.component kind enabled).panel panel = panel := by
  refine List.ext_getElem? fun i => ?_
  rw [getElem?_panel_component there distinct]
  split
  · rename_i same
    rw [same, there]
  · rfl

end Component

/-- A component is told as it should. -/
theorem filter_round {kind : ComponentKind} {index : Nat} {enabled : Bool}
    (there : panel[index]? = some (kind, enabled)) (t : Toggle) (state : ActorState) :
    (t.round state panel).filter (fun x => x.1 = index)
      = ((t.hook? kind state enabled).map (index, ·)).toList := by
  have here : ∀ i ∈ List.range panel.length,
      ((panel[i]?.bind fun c => (t.hook? c.1 state c.2).map (i, ·)).filter fun x => x.1 = index)
        = if i = index then (t.hook? kind state enabled).map (index, ·) else none := by
    intro i _
    by_cases same : i = index
    · rw [same, there, Option.bind_some]
      cases t.hook? kind state enabled <;> simp
    · cases panel[i]? with
      | none => rw [if_neg same]; rfl
      | some c =>
        rw [Option.bind_some]
        cases t.hook? c.1 state c.2 <;> simp [same]
  rw [round, List.filter_filterMap, List.filterMap_congr here,
    filterMap_range_if (List.getElem?_eq_some_iff.1 there).1]

/-- Switching an actor leaves the switches of its components alone. -/
theorem panel_actor : (Toggle.actor on).panel panel = panel :=
  List.map_id' panel

/-- Toggles leave the types of components alone. -/
theorem map_fst_panel (t : Toggle) (panel : List (ComponentKind × Bool)) :
    (t.panel panel).map (·.1) = panel.map (·.1) := by
  rw [Toggle.panel, List.map_map]
  rfl

/-! ## What a component is told -/

/-- Of what is told by a sequence of toggles, this is for one component. -/
theorem filter_rounds (ts : List Toggle) {kind : ComponentKind} {index : Nat} {enabled : Bool}
    (there : panel[index]? = some (kind, enabled)) (state : ActorState) :
    (rounds state panel ts).flatten.filter (fun x => x.1 = index)
      = (received kind state enabled ts).map (index, ·) := by
  induction ts generalizing state panel enabled with
  | nil => rfl
  | cons t ts ih =>
    have there' : (t.panel panel)[index]? = some (kind, t.flag kind enabled) := by
      rw [Toggle.panel, List.getElem?_map, there]
      rfl
    rw [rounds, received, List.flatten_cons, List.filter_append, filter_round there, ih there',
      List.map_append]
    cases t.hook? kind state enabled <;> rfl

/-- In every round components are told in the order in which they were added, and once at most. -/
theorem pairwise_of_mem_rounds (ts : List Toggle) (state : ActorState)
    (panel : List (ComponentKind × Bool)) :
    ∀ round ∈ rounds state panel ts, round.Pairwise fun x y => x.1 < y.1 := by
  have round : ∀ (t : Toggle) state panel,
      (t.round state panel).Pairwise fun x y => x.1 < y.1 := by
    intro t state panel
    refine List.Pairwise.filterMap _ (fun i j before x hx y hy => ?_) List.pairwise_lt_range
    obtain ⟨c, -, hx⟩ := Option.bind_eq_some_iff.1 hx
    obtain ⟨on, -, rfl⟩ := Option.map_eq_some_iff.1 hx
    obtain ⟨d, -, hy⟩ := Option.bind_eq_some_iff.1 hy
    obtain ⟨on', -, rfl⟩ := Option.map_eq_some_iff.1 hy
    exact before
  induction ts generalizing state panel with
  | nil => nofun
  | cons t ts ih => exact List.forall_mem_cons.2 ⟨round t state panel, ih _ _⟩

/-- Once an actor is flagged for removal, it stays so. -/
theorem foldl_state_of_destroy {ts : List Toggle} (destroyed : .destroy ∈ ts)
    (state : ActorState) : ts.foldl (fun state t => t.state state) state = .destroyed := by
  have stays : ∀ ts : List Toggle,
      ts.foldl (fun state t => t.state state) .destroyed = .destroyed := by
    intro ts
    induction ts with
    | nil => rfl
    | cons t ts ih =>
      have same : t.state .destroyed = .destroyed := by
        cases t with
        | actor on => cases on <;> rfl
        | component | destroy => rfl
      rw [List.foldl_cons, same, ih]
  induction ts generalizing state with
  | nil => cases destroyed
  | cons t ts ih =>
    rcases List.mem_cons.1 destroyed with rfl | later
    · exact stays ts
    · exact ih later _

end Toggle

/-! ## One toggle -/

/-- The stages that components of an actor go through which are told, one after the other. -/
def Stage.ofRound (e : EntityId) (round : List (Nat × Bool)) : List (Stage K) :=
  round.flatMap fun x => Stage.told e x.1 x.2

/-- The stages at a place. -/
theorem stagesAt_ofRound (e : EntityId) (index : Nat) (round : List (Nat × Bool)) :
    stagesAt (e, index) (Stage.ofRound (K := K) e round)
      = (round.filter fun x => x.1 = index).flatMap fun x =>
          [(.began, .ofSwitch x.2), (.ended, .ofSwitch x.2)] := by
  induction round with
  | nil => rfl
  | cons x round ih =>
    have first : stagesAt (e, index) (Stage.told (K := K) e x.1 x.2)
        = if x.1 = index then [(.began, .ofSwitch x.2), (.ended, .ofSwitch x.2)] else [] := by
      by_cases here : x.1 = index <;> simp [stagesAt, Stage.told, here]
    rw [Stage.ofRound, List.flatMap_cons, stagesAt_append, first, ← Stage.ofRound, ih]
    split
    · rename_i here
      rw [List.filter_cons_of_pos (by simpa using here), List.flatMap_cons]
    · rename_i other
      rw [List.filter_cons_of_neg (by simpa using other), List.nil_append]

/-- Worlds between which the switches of an actor were turned, and its components were told. -/
structure Toggled (kind : Component K B → Prop) (e : EntityId) (t : Toggle) (state : ActorState)
    (w w' : World K B) : Prop where
  ease : w'.AtEase kind e
  own : w'.state? e = some (t.state state)
  panel : w'.panel e = t.panel (w.panel e)
  stages : w'.stages = w.stages ++ Stage.ofRound e (t.round state (w.panel e))

section Toggling

open World

variable {e : EntityId} {kind : Component K B → Prop} {w : World K B} {state : ActorState}

/-- A toggle that changes nothing tells nobody. -/
theorem Toggled.same {t : Toggle} (ease : w.AtEase kind e)
    (there : w.state? e = some (t.state state)) (panel : t.panel (w.panel e) = w.panel e)
    (silent : t.round state (w.panel e) = []) : Toggled kind e t state w w where
  ease := ease
  own := there
  panel := panel.symm
  stages := by
    rw [silent]
    exact (List.append_nil _).symm

/-- Nothing happens when there is no component of a type. -/
theorem SceneM.setEnabled_absent {respond : Impulse K → SceneM K B Unit} {type : ComponentKind}
    (absent : w.first? e type = none) (on : Bool) :
    SceneM.setEnabled respond e type on w = .ok () w := by
  have found : ((w.slots? e).bind fun slots => (Slots.index? slots type).bind fun index =>
      if Slots.enabled? slots index = some on then none else some index) = none := by
    unfold first? at absent
    cases hslots : w.slots? e with
    | none => rfl
    | some slots =>
      rw [hslots, Option.bind_some] at absent
      rw [Option.bind_some, absent, Option.bind_none]
  unfold SceneM.setEnabled
  refine (bind_of_ok (t := w) rfl).trans ?_
  rw [found]
  rfl

/-- Flagging an actor for removal turns no switch and tells nobody. -/
theorem toggled_destroy (ease : w.AtEase kind e) (there : w.state? e = some state) :
    Toggled kind e .destroy state w (w.destroy e) := by
  obtain ⟨a, ha, rfl⟩ := Option.map_eq_some_iff.1 there
  have slots := (SameSlots.destroy w e).slots e
  refine ⟨ease.congr slots, ?_, ?_, ?_⟩
  · rw [state?, actor?_destroy, if_pos (mem_subtree_of_under .refl), ha]
    rfl
  · rw [panel_congr slots]
    exact (List.map_id' _).symm
  · rw [Toggle.round_eq_nil fun _ _ _ => rfl]
    exact (noted_destroy w e).trans (List.append_nil _).symm

variable [Scalar K] [Behavior K B] (composed : Composed e (Request.Aloof e) kind) (depth : Nat)
include composed

/-- Switching an actor comes to an end, with all its components told as they should be. -/
theorem SceneM.exists_actorToggled (ease : w.AtEase kind e) (there : w.state? e = some state)
    {on : Bool} (watching : (Behavior.observe (if on then .activated e else .deactivated e) :
      Program K B Unit).Only (Request.Aloof e)) :
    ∃ w', SceneM.setActive (SceneM.respond (depth + 1)) e on w = .ok () w' ∧
      Toggled kind e (.actor on) state w w' := by
  obtain ⟨a, ha, rfl⟩ := Option.map_eq_some_iff.1 there
  cases switched : SceneM.switched a.state on with
  | none =>
    obtain ⟨stays, silent⟩ := Toggle.actor_of_none switched
    refine ⟨w, SceneM.setActive_of_none (by rw [ha, Option.bind_some, switched]),
      .same ease (stays.symm ▸ there) Toggle.panel_actor ?_⟩
    exact Toggle.round_eq_nil fun _ _ _ => silent _ _
  | some after =>
    obtain ⟨w', run, briefed⟩ := SceneM.exists_setActive (background_aloof e) composed depth ease
      ha switched watching
    refine ⟨w', run, briefed.ease, ?_, ?_, ?_⟩
    · rw [briefed.state, state?, actor?_modifyActor, if_pos rfl, ha,
        Toggle.state_actor switched]
      rfl
    · rw [briefed.panel, panel_congr (slots?_modifyActor w e _ e), Toggle.panel_actor]
    · rw [briefed.stages, Toggle.round_actor switched, Stage.ofRound, List.flatMap_map,
        slotEnabled_eq, length_panel]
      rfl

/-- Switching a component does too, if there is one of each type at most. -/
theorem SceneM.exists_componentToggled (ease : w.AtEase kind e) (there : w.state? e = some state)
    (distinct : ((w.panel e).map (·.1)).Nodup) (type : ComponentKind) (on : Bool) :
    ∃ w', SceneM.setEnabled (SceneM.respond (depth + 1)) e type on w = .ok () w' ∧
      Toggled kind e (.component type on) state w w' := by
  cases first : w.first? e type with
  | none =>
    refine ⟨w, SceneM.setEnabled_absent first on, .same ease there ?_ ?_⟩
    · refine (List.map_congr_left fun c hc => ?_).trans (List.map_id _)
      obtain ⟨index, hindex⟩ := List.mem_iff_getElem?.1 hc
      rw [Toggle.flag, if_neg (ne_of_first?_eq_none first hindex).symm]
      rfl
    · refine Toggle.round_eq_nil fun index c hc => if_neg ?_
      rintro ⟨rfl, -⟩
      exact ne_of_first?_eq_none first hc rfl
  | some index =>
    obtain ⟨slot, hslot, isType⟩ := Option.map_eq_some_iff.1 (first?_eq_some_iff.1 first).1
    have here : (w.panel e)[index]? = some (type, slot.enabled) := by
      rw [getElem?_panel, hslot, ← isType]
      rfl
    by_cases already : slot.enabled = on
    · subst already
      refine ⟨w, SceneM.setEnabled_same first hslot,
        .same ease there (Toggle.panel_component_same here distinct) ?_⟩
      rw [Toggle.round_component here distinct, if_pos rfl]
    · obtain ⟨w', run, briefed⟩ := SceneM.exists_setEnabled (background_aloof e) composed depth
        ease first hslot already
      refine ⟨w', run, briefed.ease, ?_, ?_, ?_⟩
      · rw [briefed.state, state?, actor?_modifySlot]
        exact there
      · refine briefed.panel.trans (List.ext_getElem? fun i => ?_)
        rw [getElem?_panel_modifySlot, Toggle.getElem?_panel_component here distinct, hslot,
          ← isType]
        simp
      · rw [briefed.stages, Toggle.round_component here distinct, if_neg already, Stage.ofRound,
          List.flatMap_cons, List.flatMap_nil, List.append_nil]
        rfl

/-- Whatever is turned, the switches stand and the components are told as they should. -/
theorem Toggle.exists_run (ease : w.AtEase kind e) (there : w.state? e = some state)
    (distinct : ((w.panel e).map (·.1)).Nodup)
    (watching : ∀ on : Bool, (Behavior.observe (if on then .activated e else .deactivated e) :
      Program K B Unit).Only (Request.Aloof e)) (t : Toggle) :
    ∃ w', (t.program e).run (SceneM.performWith (SceneM.respond (depth + 1))) w = .ok () w' ∧
      Toggled kind e t state w w' := by
  cases t with
  | actor on =>
    obtain ⟨w', run, toggled⟩ :=
      SceneM.exists_actorToggled composed depth ease there (watching on)
    exact ⟨w', (bind_of_ok run).trans rfl, toggled⟩
  | component type on =>
    obtain ⟨w', run, toggled⟩ :=
      SceneM.exists_componentToggled composed depth ease there distinct type on
    exact ⟨w', (bind_of_ok run).trans rfl, toggled⟩
  | destroy => exact ⟨w.destroy e, rfl, toggled_destroy ease there⟩

/-- After any number of toggles the switches stand and the components have been told as they should.
-/
theorem Toggle.exists_runAll (watching : ∀ on : Bool,
      (Behavior.observe (if on then .activated e else .deactivated e) : Program K B Unit).Only
        (Request.Aloof e)) (ts : List Toggle) (ease : w.AtEase kind e)
    (there : w.state? e = some state) (distinct : ((w.panel e).map (·.1)).Nodup) :
    ∃ w', (ts.forM (Toggle.program e)).run (SceneM.performWith (SceneM.respond (depth + 1))) w
        = .ok () w' ∧
      w'.state? e = some (ts.foldl (fun state t => t.state state) state) ∧
      w'.panel e = ((w.panel e).map fun c =>
        (c.1, ts.foldl (fun enabled t => t.flag c.1 enabled) c.2)) ∧
      w'.stages = w.stages ++ Stage.ofRound e (Toggle.rounds state (w.panel e) ts).flatten := by
  induction ts generalizing w state with
  | nil => exact ⟨w, rfl, there, (List.map_id' _).symm, (List.append_nil _).symm⟩
  | cons t ts ih =>
    obtain ⟨v, run, toggled⟩ :=
      Toggle.exists_run composed depth ease there distinct watching t
    have distinct' : ((v.panel e).map (·.1)).Nodup := by
      rw [toggled.panel, Toggle.map_fst_panel]
      exact distinct
    obtain ⟨w', runs, own, panel, stages⟩ := ih toggled.ease toggled.own distinct'
    refine ⟨w', ?_, own, ?_, ?_⟩
    · change (((t.program e).bind fun _ => ts.forM (Toggle.program e)).run _) w = _
      rw [Program.run_bind]
      exact (bind_of_ok run).trans runs
    · rw [panel, toggled.panel, Toggle.panel, List.map_map]
      rfl
    · rw [stages, toggled.stages, toggled.panel, List.append_assoc, Toggle.rounds,
        List.flatten_cons]
      exact congrArg _ List.flatMap_append.symm

/-- Every component is told once for each transition, and otherwise never: when its own switch
changes, and when the own state of its actor changes while it is enabled. This is so for any
sequence of toggles of an actor that has components of different types, none of which calls back
when it is told, nor anyone who observes the actor. The run comes to an end, and all that is told is
told to components of the actor, one after the other: within one toggle they are told in the order
in which they were added. Switching the actor leaves the switches of its components alone, and once
it has been destroyed has no effect at all. -/
theorem hooks_fire_once_per_transition (ease : w.AtEase kind e) (there : w.state? e = some state)
    (distinct : ((w.panel e).map (·.1)).Nodup)
    (watching : ∀ on : Bool, (Behavior.observe (if on then .activated e else .deactivated e) :
      Program K B Unit).Only (Request.Aloof e)) (ts : List Toggle) :
    ∃ w' new, (ts.forM (Toggle.program e)).run (SceneM.performWith (SceneM.respond (depth + 1))) w
        = .ok () w' ∧
      w'.stages = w.stages ++ new ∧
      (∀ (index : Nat) type enabled, (w.panel e)[index]? = some (type, enabled) →
        stagesAt (e, index) new = (Toggle.received type state enabled ts).flatMap fun on =>
          [(.began, .ofSwitch on), (.ended, .ofSwitch on)]) ∧
      new = Stage.ofRound e (Toggle.rounds state (w.panel e) ts).flatten ∧
      (∀ round ∈ Toggle.rounds state (w.panel e) ts, round.Pairwise fun x y => x.1 < y.1) ∧
      w'.panel e = ((w.panel e).map fun c =>
        (c.1, ts.foldl (fun enabled t => t.flag c.1 enabled) c.2)) ∧
      w'.state? e = some (ts.foldl (fun state t => t.state state) state) ∧
      (Toggle.destroy ∈ ts → ∀ respond on,
        SceneM.performWith respond (.setActive e on) w' = .ok () w') := by
  obtain ⟨w', run, own, panel, stages⟩ :=
    Toggle.exists_runAll composed depth watching ts ease there distinct
  refine ⟨w', _, run, stages, fun index type enabled here => ?_, rfl,
    Toggle.pairwise_of_mem_rounds ts state _, panel, own, fun destroyed respond on => ?_⟩
  · rw [stagesAt_ofRound, Toggle.filter_rounds ts here, List.flatMap_map]
  · rw [Toggle.foldl_state_of_destroy destroyed] at own
    obtain ⟨a, ha, flagged⟩ := Option.map_eq_some_iff.1 own
    exact SceneM.setActive_of_none (by rw [ha, Option.bind_some, flagged]; rfl)

end Toggling

/-! ## A studio -/

/-- Modest requests are aloof from every actor. -/
theorem Request.Modest.aloof {request : Request K B} (h : request.Modest) (e : EntityId) :
    request.Aloof e := by
  cases request with
  | ask => trivial
  | edit x => cases x <;> first | exact trivial | exact absurd h id
  | _ => exact absurd h id

/-- An actor that moves and listens. -/
def studio : Program Float32 Empty Unit := do
  let e ← Program.edit (.spawn (.named "a"))
  let _ ← Program.edit (.add e (.mover (.start ⟨3, 0, 0⟩ 8 .linear none)))
  let _ ← Program.edit (.add e .listener)
  return ()

/-- The listener is switched off, the actor is switched off twice, the listener is switched on while
the actor is off, the actor is switched on, and once more off when it has been destroyed. -/
def rehearsal : List Toggle :=
  [.component .listener false, .actor false, .actor false, .component .listener true, .actor true,
    .destroy, .actor false]

/-- The mover is told when its actor is switched off and on, and the listener when it is switched
off and on itself, and again when its actor is switched on. -/
theorem hooks_fire_once_per_transition_studio :
    ∃ w w' : World Float32 Empty, AtMoment (Scope.everything Float32 Empty).fit w ∧
      w.panel ⟨0⟩ = [(.mover, true), (.listener, true)] ∧
      (rehearsal.forM (Toggle.program ⟨0⟩)).run SceneM.perform w = .ok () w' ∧
      w'.stages = w.stages ++ Stage.ofRound ⟨0⟩
        [(1, false), (0, false), (1, true), (0, true), (1, true)] ∧
      w'.panel ⟨0⟩ = [(.mover, true), (.listener, true)] ∧ w'.state? ⟨0⟩ = some .destroyed ∧
      ∀ on, SceneM.perform (.setActive ⟨0⟩ on) w' = .ok () w' := by
  have run : studio.passes .bare fun _ w => decide (w.state? ⟨0⟩ = some .active) &&
      decide (w.panel ⟨0⟩ = [(.mover, true), (.listener, true)]) := by decide +kernel
  obtain ⟨_, w, hrun, checked⟩ := Program.exists_of_passes run
  simp only [Bool.and_eq_true, decide_eq_true_eq] at checked
  obtain ⟨active, panel⟩ := checked
  have h : AtMoment (Scope.everything Float32 Empty).fit w := Reachable.moment
    (.step (.empty rfl rfl rfl rfl) (.program (Scope.fit_everything studio) hrun))
  obtain ⟨depth, limit⟩ := SceneM.exists_hookLimit
  obtain ⟨w', new, toggled, stages, -, told, -, panel', own, final⟩ :=
    hooks_fire_once_per_transition ((composed_builtIn ⟨0⟩).mono fun _ h => h.aloof ⟨0⟩) depth
      (h.atEase fun _ _ c _ _ => c.builtIn) active (by rw [panel]; decide) (fun _ => trivial)
      rehearsal
  rw [panel] at told panel'
  refine ⟨w, w', h, panel, ?_, stages.trans (congrArg _ told), panel', own, fun on => ?_⟩
  · unfold SceneM.perform
    rw [limit]
    exact toggled
  · exact final (by simp [rehearsal]) _ on

end SheepScene
