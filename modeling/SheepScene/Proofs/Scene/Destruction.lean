import SheepScene.Proofs.Scene.Listing
import SheepScene.Proofs.Scene.Reentrancy
import SheepScene.Proofs.Scene.WellFormed
import Mathlib.Data.List.Nodup

/-!
# Destroyed actors

Destroying an actor reaches everything that is under it at that moment, over links to children, and
flags the actors among it (`World.actor?_destroy`). This is final: a flagged actor is never active
again, is not found by its name and takes part in no pass (`World.Condemned`), until a sweep takes
it out of the scene. After the next sweep it has gone, and as long as nothing is dropped behind the
back of the scene nothing refers to it any more (`destruction_is_final`).

Updates that had been put off while a component of such an actor was executing are still acted on,
and no others (`World.RunsOut`): a scene asks a component for an update only while its actor is
active (`Scope.Step`). What is under an actor without being an actor itself has no state, is not
flagged and outlives the sweep (`destruction_leaves_traces`).
-/

set_option autoImplicit false

namespace SheepScene

variable {K B : Type}

namespace World

/-! ## Everything under an entity -/

/-- A child of an entity. -/
def HasChild (w : World K B) (e child : EntityId) : Prop :=
  child ∈ w.children e

/-- Everything that is reached from an entity over links to children, itself included. -/
abbrev Under (w : World K B) (x e : EntityId) : Prop :=
  Relation.ReflTransGen w.HasChild e x

variable {w : World K B}

/-- An entity with a child is one that there has been. -/
theorem index_lt_of_hasChild {e child : EntityId} (h : w.HasChild e child) :
    e.index < w.entities.size := by
  obtain ⟨t, ht⟩ := Option.isSome_iff_exists.1 (transform?_of_mem_children h)
  obtain ⟨x, hx, -⟩ := Option.bind_eq_some_iff.1 ht
  exact index_lt_of_entity? hx

/-- A way from an entity down to another one, over the given entities. -/
def Way (w : World K B) : EntityId → List EntityId → EntityId → Prop
  | e, [], x => e = x
  | e, next :: rest, x => w.HasChild e next ∧ w.Way next rest x

/-- The rest of a way down is a way down. -/
theorem Way.after {e x y : EntityId} {before after : List EntityId}
    (h : w.Way e (before ++ y :: after) x) : w.Way y after x := by
  induction before generalizing e with
  | nil => exact h.2
  | cons next before ih => exact ih h.2

/-- A way that comes back to where it began can be cut short, so that some way does not come to
anything twice. -/
theorem exists_way {e x : EntityId} (h : w.Under x e) : ∃ l, w.Way e l x ∧ (e :: l).Nodup := by
  induction h using Relation.ReflTransGen.head_induction_on with
  | refl => exact ⟨[], rfl, List.nodup_singleton x⟩
  | @head e next child _ ih =>
    obtain ⟨l, way, nodup⟩ := ih
    by_cases back : e ∈ next :: l
    · rcases List.mem_cons.1 back with rfl | back
      · exact ⟨l, way, nodup⟩
      · obtain ⟨before, after, rfl⟩ := List.append_of_mem back
        exact ⟨after, way.after, nodup.of_cons.of_append_right⟩
    · exact ⟨next :: l, ⟨child, way⟩, List.nodup_cons.2 ⟨back, nodup⟩⟩

/-- All on a way down but the last are entities that there have been. -/
theorem Way.known {e x : EntityId} {l : List EntityId} (h : w.Way e l x) :
    ∀ y ∈ (e :: l).dropLast, y.index < w.entities.size := by
  induction l generalizing e with
  | nil => simp
  | cons next rest ih =>
    intro y hy
    rw [List.dropLast_cons_cons, List.mem_cons] at hy
    rcases hy with rfl | hy
    · exact index_lt_of_hasChild h.1
    · exact ih h.2 y hy

/-- Such a way is not longer than there are entities. -/
theorem Way.length_le {e x : EntityId} {l : List EntityId} (h : w.Way e l x)
    (nodup : (e :: l).Nodup) : l.length ≤ w.entities.size := by
  have indices : ((e :: l).dropLast.map EntityId.index).Nodup := by
    refine (nodup.sublist (List.dropLast_sublist _)).map fun x y same => ?_
    exact congrArg EntityId.mk same
  have inside : (e :: l).dropLast.map EntityId.index ⊆ List.range w.entities.size := by
    intro i hi
    obtain ⟨y, hy, rfl⟩ := List.mem_map.1 hi
    exact List.mem_range.2 (h.known y hy)
  simpa using (indices.subperm inside).length_le

/-- What is reached by a way down belongs to the subtree, if that is searched deep enough. -/
theorem Way.mem_subtreeFrom {e x : EntityId} {l : List EntityId} {depth : Nat} (h : w.Way e l x)
    (enough : l.length ≤ depth) : x ∈ w.subtreeFrom depth e := by
  induction l generalizing e depth with
  | nil =>
    obtain rfl : e = x := h
    exact self_mem_subtreeFrom depth e
  | cons next rest ih =>
    obtain ⟨depth, rfl⟩ := Nat.exists_eq_add_of_le' (Nat.le_trans (Nat.le_add_left 1 _) enough)
    rw [subtreeFrom, List.mem_cons, List.mem_flatMap]
    exact .inr ⟨next, h.1, ih h.2 (Nat.le_of_succ_le_succ enough)⟩

/-- The subtree of an entity has all that is under it, also where links are broken. -/
theorem mem_subtree_of_under {e x : EntityId} (h : w.Under x e) : x ∈ w.subtree e := by
  obtain ⟨l, way, nodup⟩ := exists_way h
  exact way.mem_subtreeFrom (way.length_le nodup)

/-! ## Flags -/

/-- What flagging some actors does to each of them. -/
theorem actor?_flagAll (l : List EntityId) (w : World K B) (x : EntityId) :
    (l.foldl (fun w e => w.modifyActor e fun a => { a with state := .destroyed }) w).actor? x
      = if x ∈ l then (w.actor? x).map fun a => { a with state := .destroyed } else w.actor? x := by
  induction l generalizing w with
  | nil => simp
  | cons y l ih =>
    rw [List.foldl_cons, ih, actor?_modifyActor]
    by_cases hx : x = y
    · subst hx
      by_cases hl : x ∈ l <;> simp [hl, Function.comp_def]
    · simp [hx]

/-- Destroying flags the actors of the subtree and leaves all others alone. -/
theorem actor?_destroy (w : World K B) (e x : EntityId) :
    (w.destroy e).actor? x = if x ∈ w.subtree e
      then (w.actor? x).map fun a => { a with state := .destroyed } else w.actor? x :=
  actor?_flagAll (w.subtree e) w x

/-- An actor that is flagged for removal: as long as it is there it is destroyed, it is neither
active nor found by its name, and it takes part in no pass. -/
structure Condemned [Scalar K] (w : World K B) (x : EntityId) : Prop where
  state : (w.entity? x).isSome → ∃ a, w.actor? x = some a ∧ a.state = .destroyed
  active : w.isActive x = false
  found : ∀ name, w.find? name ≠ some x
  updates : ∀ respond dt, SceneM.updateActor respond x dt w = .ok () w ∧
    SceneM.lateUpdateActor respond x dt w = .ok () w
  /-- Nor does a pass that is at the actor already go on. -/
  hooks : ∀ respond hook indices,
    SceneM.dispatchWhileActive respond x hook indices w = .ok () w

/-- All of this comes from its being destroyed. -/
theorem Condemned.of_state [Scalar K] {w : World K B} {x : EntityId}
    (state : (w.entity? x).isSome → ∃ a, w.actor? x = some a ∧ a.state = .destroyed) :
    w.Condemned x := by
  have destroyed : ∀ a, w.actor? x = some a → a.state = .destroyed := by
    intro a ha
    obtain ⟨entity, hentity, -⟩ := Option.bind_eq_some_iff.1 ha
    obtain ⟨b, hb, destroyed⟩ := state (by rw [hentity, Option.isSome_some])
    cases ha.symm.trans hb
    exact destroyed
  have active : w.isActive x = false := by
    refine Bool.eq_false_iff.2 fun active => ?_
    obtain ⟨there, all⟩ := isActive_iff.1 active
    obtain ⟨a, ha⟩ := Option.isSome_iff_exists.1 there
    cases (all x (self_mem_lineage w x) a ha).symm.trans (destroyed a ha)
  have takes : ∀ dt, SceneM.ownDelta x dt w = .ok none w := by
    intro dt
    unfold SceneM.ownDelta
    refine (bind_of_ok (t := w) rfl).trans ?_
    cases hx : w.actor? x <;> simp [active] <;> rfl
  refine ⟨state, active, fun name hfound => ?_, fun respond dt => ?_,
    fun respond hook indices => ?_⟩
  · have passed := List.find?_some hfound
    cases hx : w.actor? x with
    | none => simp [hx] at passed
    | some a => simp [hx, destroyed a hx] at passed
  · constructor
    · exact bind_of_ok (takes dt)
    · exact bind_of_ok (takes dt)
  · cases indices with
    | nil => rfl
    | cons index rest =>
      unfold SceneM.dispatchWhileActive
      refine (bind_of_ok (t := w) rfl).trans ?_
      simp only [active]
      rfl

end World

/-! ## Sweeps -/

section Sweeps

variable [Scalar K] [Behavior K B] {scope : Scope K B} {acting : List (Acting K)} {w w' : World K B}

/-- Whatever has been reclaimed has gone. -/
theorem leads_reclaimAll (behaved : scope.Behaved) (fitting : FitScheduler scope.fit w)
    {depth : Nat} {doomed : List (EntityId × String)}
    (hrun : doomed.forM (SceneM.reclaim (SceneM.respond depth)) w = .ok () w') :
    scope.Leads ⟨acting, w⟩ ⟨acting, w'⟩ ∧
      ∀ d ∈ doomed, d.1.index < w.entities.size → w'.entity? d.1 = none := by
  induction doomed generalizing w with
  | nil =>
    cases hrun
    exact ⟨.refl, fun d hd => absurd hd List.not_mem_nil⟩
  | cons d rest ih =>
    obtain ⟨_, w₁, hreclaim, hrest⟩ := bind_ok hrun
    obtain ⟨_, w₂, hemit, hmodify⟩ := bind_ok hreclaim
    cases hmodify
    have observed : Keeps (scope.Led ⟨acting, w⟩ acting)
        (SceneM.emit (SceneM.respond depth) (.destroyed d.1 d.2)) :=
      Scope.led_emit (Scope.led_respond fitting behaved depth) acting _
    have emitted : scope.Leads ⟨acting, w⟩ ⟨acting, w₂⟩ := (observed w .refl () w₂ hemit).leads
    have reclaimed : scope.Leads ⟨acting, w⟩ ⟨acting, w₂.reclaim d.1⟩ := emitted.tail (.reclaim d.1)
    obtain ⟨leads, gone⟩ := ih (reclaimed.fitScheduler fitting) hrest
    refine ⟨reclaimed.trans leads, fun d' hd' known => ?_⟩
    have known := Nat.lt_of_lt_of_le known reclaimed.precedes.size
    rcases List.mem_cons.1 hd' with rfl | hd'
    · apply leads.precedes.gone known
      exact (World.entity?_reclaim w₂ d'.1 d'.1).trans (if_pos rfl)
    · exact gone d' hd' known

/-- A sweep takes away all actors that are flagged when it begins. -/
theorem leads_sweep (behaved : scope.Behaved) (fitting : FitScheduler scope.fit w) {depth : Nat}
    (listed : w.Listed) (hrun : SceneM.sweep (SceneM.respond depth) w = .ok () w') :
    scope.Leads ⟨acting, w⟩ ⟨acting, w'⟩ ∧
      ∀ x a, w.actor? x = some a → a.state = .destroyed → w'.entity? x = none := by
  unfold SceneM.sweep at hrun
  obtain ⟨_, _, hget, hrun⟩ := bind_ok hrun
  cases hget
  have swept : scope.Leads ⟨acting, w⟩ ⟨acting, w'⟩ ∧ ∀ d ∈ w.doomed,
      d.1.index < w.entities.size → w'.entity? d.1 = none :=
    leads_reclaimAll behaved fitting hrun
  obtain ⟨leads, gone⟩ := swept
  refine ⟨leads, fun x a ha destroyed => ?_⟩
  have hx := listed.listed x (by rw [ha, Option.isSome_some])
  have doomed : (x, a.name) ∈ w.doomed := by
    refine List.mem_filterMap.2 ⟨x, hx, ?_⟩
    simp [ha, destroyed]
  exact gone _ doomed (listed.known x hx)

/-- What comes after a sweep that begins after an instant. -/
def Scope.AfterSweep (scope : Scope K B) (y v : Instant K B) : Prop :=
  ∃ acting w depth w', scope.Leads y ⟨acting, w⟩ ∧
    SceneM.sweep (SceneM.respond depth) w = .ok () w' ∧ scope.Leads ⟨acting, w'⟩ v

/-- A flagged actor stays flagged as long as it is there. -/
theorem Scope.Leads.destroyed {y : Instant K B} (leads : scope.Leads ⟨acting, w⟩ y) {x : EntityId}
    {a : Actor K} (ha : w.actor? x = some a) (flagged : a.state = .destroyed)
    (there : (y.world.entity? x).isSome) :
    ∃ b, y.world.actor? x = some b ∧ b.state = .destroyed := by
  have known : x.index < w.entities.size := by
    obtain ⟨entity, hentity, -⟩ := Option.bind_eq_some_iff.1 ha
    exact World.index_lt_of_entity? hentity
  have still := leads.precedes.actor?_isSome known there
  rw [ha, Option.isSome_some] at still
  obtain ⟨b, hb⟩ := Option.isSome_iff_exists.1 still
  exact ⟨b, hb, leads.precedes.destroyed ha flagged hb⟩

/-- A flagged actor has gone after a sweep that begins later. -/
theorem Scope.AfterSweep.gone (behaved : scope.Behaved) (fitting : FitScheduler scope.fit w)
    (listed : w.Listed) {x : EntityId} {a : Actor K} (ha : w.actor? x = some a)
    (flagged : a.state = .destroyed) {v : Instant K B} (after : scope.AfterSweep ⟨acting, w⟩ v) :
    scope.Leads ⟨acting, w⟩ v ∧ v.world.entity? x = none := by
  obtain ⟨acting₁, w₁, depth, w₂, before, hsweep, after⟩ := after
  have listed₁ : w₁.Listed :=
    Scope.Leads.keeps (I := fun y => y.world.Listed) Change.listed before listed
  obtain ⟨swept, reclaimed⟩ := leads_sweep behaved (before.fitScheduler fitting) listed₁ hsweep
  refine ⟨(before.trans swept).trans after, ?_⟩
  obtain ⟨entity, hentity, -⟩ := Option.bind_eq_some_iff.1 ha
  have known := World.index_lt_of_entity? hentity
  have known₁ := Nat.lt_of_lt_of_le known before.precedes.size
  have known₂ := Nat.lt_of_lt_of_le known₁ swept.precedes.size
  apply after.precedes.gone known₂
  -- Either it had gone before the sweep, or the sweep finds it flagged.
  by_cases there : (w₁.entity? x).isSome
  · obtain ⟨b, hb, destroyed⟩ := before.destroyed ha flagged there
    exact reclaimed x b hb destroyed
  · exact swept.precedes.gone known₁ (Option.not_isSome_iff_eq_none.1 there)

/-- An invariant of the state is kept by all changes where edits are tidy. -/
theorem TidyInvariant.change {I : World K B → Prop} (invariant : TidyInvariant I)
    (tidy : ∀ x, scope.requests (.edit x) → x.Tidy) {x y : Instant K B} (change : Change scope x y)
    (h : I x.world) : I y.world := by
  have record : ∀ (w : World K B) event, SameScene w (w.record event) := fun _ _ =>
    ⟨rfl, fun _ => rfl, rfl, rfl, rfl⟩
  cases change with
  | edit x allowed => exact invariant.apply x (tidy x allowed) h
  | record => exact invariant.same (record _ _) h
  | dequeue =>
    refine invariant.same ?_ h
    exact ⟨rfl, fun _ => rfl, rfl, rfl, rfl⟩
  | lend | restore => exact invariant.scheduler h
  | reclaim e => exact invariant.reclaim e h
  | switch => exact invariant.same (.modifyActor _ _ _) h
  | enable => exact invariant.same (.modifySlots _ _ _) h
  | putOff | start => exact invariant.same (record _ _) (invariant.same (.modifySlots _ _ _) h)
  | resume =>
    refine invariant.same (record _ _) (invariant.same (.modifySlots _ _ _) ?_)
    exact invariant.same (record _ _) h
  | finish => exact invariant.same (.modifySlots _ _ _) (invariant.same (record _ _) h)
  | vanish component =>
    exact invariant.same (.dropComponent _ component) (invariant.same (record _ _) h)

end Sweeps

namespace World

/-- An entity that has gone, and that nothing refers to. -/
structure Without (w : World K B) (x : EntityId) : Prop where
  entity : w.entity? x = none
  actors : x ∉ w.actors
  parent : ∀ y, w.parent? y ≠ some x
  children : ∀ y, x ∉ w.children y

/-- In a well-formed scene nothing refers to an entity that has gone. -/
theorem WellFormed.without {w : World K B} (h : w.WellFormed) {x : EntityId}
    (gone : w.entity? x = none) : w.Without x := by
  have noTransform : ¬ (w.transform? x).isSome := by simp [transform?, gone]
  refine ⟨gone, fun hx => ?_, fun y hy => ?_, fun y hy => ?_⟩
  · rw [h.roster, mem_population_iff] at hx
    simp [actor?, gone] at hx
  · exact noTransform (transform?_of_mem_children ((h.links.linked y x).1 hy))
  · exact noTransform (transform?_of_above ((h.links.linked x y).2 hy))

end World

/-! ## Updates that had been put off -/

/-- The updates on which a component begins to act in the given stages. -/
def begunUpdates (l : List (HookStage × Hook K)) : List (Hook K) :=
  (l.filter fun s => s.1 = .began && s.2.isUpdate).map (·.2)

/-- Stages at one place are those of the component there, and none of any other. -/
theorem stagesAt_placed (x : EntityId × Nat) (e : EntityId) (index : Nat)
    (l : List (HookStage × Hook K)) :
    stagesAt x (l.map fun s => ⟨e, index, s.1, s.2⟩) = if x = (e, index) then l else [] := by
  split
  · next here => simp [stagesAt, here, List.filter_map, Function.comp_def]
  · next elsewhere => simp [stagesAt, Ne.symm elsewhere, List.filter_map, Function.comp_def]

/-- The updates that begin in one stretch after another. -/
theorem begunUpdates_append (l l' : List (HookStage × Hook K)) :
    begunUpdates (l ++ l') = begunUpdates l ++ begunUpdates l' := by
  simp [begunUpdates]

/-- The updates that have been put off and wait for the component at a place. -/
def World.waitingUpdates (w : World K B) (x : EntityId × Nat) : List (Hook K) :=
  match w.slot? x.1 x.2 with
  | none => []
  | some slot => slot.deferred.filter Hook.isUpdate

namespace World

variable {w w' : World K B} {x : EntityId × Nat}

/-- Slots that are left alone keep the updates that wait, and new ones have none. -/
theorem Undisturbed.waitingUpdates (h : w.Undisturbed w') :
    w'.waitingUpdates x <+: w.waitingUpdates x := by
  unfold World.waitingUpdates
  cases hslot' : w'.slot? x.1 x.2 with
  | none => exact List.nil_prefix
  | some slot' =>
    rcases h.slot x slot' hslot' with ⟨slot, hslot, -, deferred⟩ | ⟨-, -, deferred⟩
    · simp only [hslot, deferred]
      exact List.prefix_rfl
    · simp only [deferred]
      exact List.nil_prefix

/-- What waits elsewhere is left alone. -/
theorem waitingUpdates_elsewhere {e : EntityId} {index : Nat} (h : x ≠ (e, index))
    (f : Slot K B → Slot K B) :
    (w.modifySlot e index f).waitingUpdates x = w.waitingUpdates x := by
  unfold waitingUpdates
  rw [slot?_modifySlot, if_neg h]

/-- The updates that wait are written in the slot. -/
theorem waitingUpdates_of_slot? {slot : Slot K B} (h : w.slot? x.1 x.2 = some slot) :
    w.waitingUpdates x = slot.deferred.filter Hook.isUpdate := by
  unfold waitingUpdates
  rw [h]

/-- What a change to its slot does to the updates that wait. -/
theorem waitingUpdates_here {e : EntityId} {index : Nat} {slot : Slot K B}
    (h : w.slot? e index = some slot) (f : Slot K B → Slot K B) :
    (w.modifySlot e index f).waitingUpdates (e, index)
      = (f slot).deferred.filter Hook.isUpdate := by
  apply waitingUpdates_of_slot?
  rw [slot?_modifySlot, if_pos rfl, h, Option.map_some]

/-- From a world on, the components of an actor have only begun to act on updates that waited for
them there, in order, and the rest of those may still wait. -/
def RunsOut (w : World K B) (e : EntityId) (v : World K B) : Prop :=
  ∃ new, v.stages = w.stages ++ new ∧ ∀ index,
    begunUpdates (stagesAt (e, index) new) ++ v.waitingUpdates (e, index)
      <+: w.waitingUpdates (e, index)

namespace RunsOut

variable {e : EntityId} {v v' : World K B}

/-- At first none of them has begun. -/
theorem refl (w : World K B) (e : EntityId) : RunsOut w e w :=
  ⟨[], by simp, fun _ => List.prefix_rfl⟩

/-- It goes on like this if the updates that begin are the first of those that wait. -/
theorem next (h : RunsOut w e v) {added : List (Stage K)} (stages : v'.stages = v.stages ++ added)
    (each : ∀ index, begunUpdates (stagesAt (e, index) added) ++ v'.waitingUpdates (e, index)
      <+: v.waitingUpdates (e, index)) : RunsOut w e v' := by
  obtain ⟨new, hnew, before⟩ := h
  refine ⟨new ++ added, by rw [stages, hnew, List.append_assoc], fun index => ?_⟩
  rw [stagesAt_append, begunUpdates_append, List.append_assoc]
  exact ((List.prefix_append_right_inj _).2 (each index)).trans (before index)

/-- Changes that leave hooks and slots alone let none of them begin. -/
theorem undisturbed (h : RunsOut w e v) (stages : v'.stages = v.stages)
    (undisturbed : v.Undisturbed v') : RunsOut w e v' :=
  h.next (stages.trans (List.append_nil _).symm) fun _ => undisturbed.waitingUpdates

/-- Something happens at one place: in the slot, and in the stages of its component. -/
theorem place (h : RunsOut w e v) {e' : EntityId} {index : Nat} {slot : Slot K B}
    {f : Slot K B → Slot K B} {l : List (HookStage × Hook K)} (hslot : v.slot? e' index = some slot)
    (slots : ∀ x, v'.waitingUpdates x = (v.modifySlot e' index f).waitingUpdates x)
    (stages : v'.stages = v.stages ++ l.map fun s => ⟨e', index, s.1, s.2⟩)
    (here : e' = e → begunUpdates l ++ (f slot).deferred.filter Hook.isUpdate
      <+: slot.deferred.filter Hook.isUpdate) : RunsOut w e v' := by
  refine h.next stages fun i => ?_
  rw [slots]
  by_cases same : (e, i) = (e', index)
  · cases same
    rw [stagesAt_placed, if_pos rfl, waitingUpdates_here hslot, waitingUpdates_of_slot? hslot]
    exact here rfl
  · rw [stagesAt_placed, if_neg same, waitingUpdates_elsewhere same]
    exact List.prefix_rfl

end RunsOut

end World

section PutOff

variable [Scalar K] [Behavior K B] {scope : Scope K B} {w : World K B} {e : EntityId}
  {x y : Instant K B}

/-- Where an actor is not active, a change sends it no new updates. -/
theorem Scope.Step.runsOut (step : scope.Step x y) (inactive : x.world.isActive e = false)
    (h : w.RunsOut e x.world) : w.RunsOut e y.world := by
  obtain ⟨change, due⟩ := step
  have calm : ∀ {e' index hook}, Asked x y e' index hook → e' = e → hook.isUpdate = false := by
    rintro e' index hook asked rfl
    cases update : hook.isUpdate with
    | false => rfl
    | true => exact absurd (due asked update) (by simp [inactive])
  cases change with
  | edit x _ => exact h.undisturbed (World.stages_apply _ x) (.apply _ x)
  | record aside => exact h.undisturbed (World.stages_record_aside _ aside) (.of_entities rfl)
  | dequeue | lend | restore _ => exact h.undisturbed rfl (.of_entities rfl)
  | reclaim e => exact h.undisturbed (World.stages_reclaim _ e) (.reclaim _ e)
  | switch ha hstate =>
    exact h.undisturbed rfl (.of_slots (.switch ha hstate) (World.slots?_modifyActor _ _ _))
  | enable e index enabled =>
    exact h.undisturbed rfl (.modifySlot _ e index (fun _ _ => rfl) fun _ => rfl)
  | @putOff _ w₁ e' index slot hook _ hslot _ =>
    have stages := World.stages_record_hook (w₁.modifySlot e' index fun slot =>
      { slot with deferred := slot.deferred ++ [hook] }) e' index .deferred hook
    refine h.place (l := [(.deferred, hook)]) hslot (fun _ => rfl) stages fun here => ?_
    have patient := calm ⟨.deferred, nofun, stages⟩ here
    simp [begunUpdates, patient]
  | @start _ w₁ e' index slot component hook _ hslot _ =>
    have stages := World.stages_record_hook (w₁.modifySlot e' index fun slot =>
      { slot with component := none }) e' index .began hook
    refine h.place (l := [(.began, hook)]) hslot (fun _ => rfl) stages fun here => ?_
    have patient := calm ⟨.began, nofun, stages⟩ here
    simp [begunUpdates, patient]
  | @resume _ w₁ e' index hook slot next deferred hslot hdeferred =>
    have stages := World.stages_resume w₁ e' index hook next fun slot => { slot with deferred }
    refine h.place (l := [(.ended, hook), (.began, next)]) hslot (fun _ => rfl) stages fun _ => ?_
    -- the hook that begins is the first of those that waited
    rw [hdeferred]
    cases update : next.isUpdate <;> simp [begunUpdates, update]
  | @finish _ w₁ e' index hook slot component hslot _ =>
    have stages := World.stages_record_hook w₁ e' index .ended hook
    refine h.place (l := [(.ended, hook)]) hslot (fun _ => rfl) stages fun _ => ?_
    simp [begunUpdates]
  | @vanish _ w₁ e' index hook component _ =>
    have gone : w₁.Undisturbed ((w₁.record (.hook e' index .ended hook)).dropComponent component) :=
      .of_entities (by rw [World.dropComponent_eq]; rfl)
    have stages := (World.stages_dropComponent (w₁.record (.hook e' index .ended hook))
      component).trans (World.stages_record_hook w₁ e' index .ended hook)
    refine h.next stages fun i => ?_
    by_cases same : (e, i) = (e', index)
    · cases same
      rw [stagesAt_here]
      exact gone.waitingUpdates
    · rw [stagesAt_elsewhere same]
      exact gone.waitingUpdates

/-- Where an actor is never active, its components only act on updates that had been put off. -/
theorem Scope.Steps.runsOut (steps : scope.Steps x y)
    (inactive : ∀ z, scope.Leads x z → z.world.isActive e = false) (h : w.RunsOut e x.world) :
    w.RunsOut e y.world := by
  induction steps with
  | refl => exact h
  | tail before step ih => exact step.runsOut (inactive _ (Scope.Steps.leads before)) ih

end PutOff

/-! ## Ways to destroy an actor -/

/-- Scripts destroy the actor that has the name. -/
theorem HostFunctions.destroyActor_eq {B : Type} [Behavior Float32 B]
    {f : HostFunction (HostBody Float32 B)} (hf : f ∈ table.functions)
    (name : f.name = "DestroyActor")
    (respond : Impulse Float32 → SceneM Float32 B Unit) {args : List Value} {w : World Float32 B}
    {e : EntityId} (found : w.find? (text args 0) = some e) :
    (SceneM.host respond).call f.body args w = .ok (.ok .void) (w.destroy e) := by
  have hf := HostTable.mem_ofList hf
  simp only [all, List.mem_cons, List.not_mem_nil, or_false] at hf
  have isDestroy : f = function "DestroyActor" [.string] none fun args =>
      withActor "DestroyActor" args fun e => Program.edit (.destroy e) := by
    rcases hf with rfl | rfl | rfl | rfl | rfl | rfl | rfl | rfl | rfl | rfl | rfl | rfl | rfl
    case inr.inr.inr.inr.inr.inr.inr.inl => rfl
    all_goals simp [function] at name
  subst isDestroy
  have asked : (Program.ask (.find (text args 0)) : Steps B _).run (SceneM.performWithin respond) w
      = .ok (some e) w := by
    change EStateM.Result.ok (w.find? (text args 0)) w = _
    rw [found]
  have named : (namedActor "DestroyActor" (text args 0)).run (SceneM.performWithin respond) w
      = .ok (some e) w := by
    change ((Program.ask (.find (text args 0))).bind _).run _ w = _
    rw [Program.run_bind, bind_of_ok asked]
    rfl
  have destroyed : (withActor "DestroyActor" args fun e => Program.edit (.destroy e)).run
      (SceneM.performWithin respond) w = .ok .void (w.destroy e) := by
    change ((namedActor "DestroyActor" (text args 0)).bind _).run _ w = _
    rw [Program.run_bind, bind_of_ok named]
    rfl
  change ((withActor "DestroyActor" args fun e => Program.edit (.destroy e)).bind _).run _ w = _
  rw [Program.run_bind, bind_of_ok destroyed]
  rfl

section Destruction

variable {scope : Scope Float32 B} [Behavior Float32 B]

/-- Destruction is final, whatever hooks, observers, host functions and programs do. Requests,
commands and scripts destroy actors in the same way, at any instant of a scene. From then on,
at all instants to which it leads, every actor that was under the destroyed one, itself included,
is destroyed as long as it is there, is neither active nor found by its name, and takes part in no
pass. Its components may still act on updates, but only on those that had been put off before,
while they were executing, each at most once and in order. After any sweep that begins later the
actor has gone for good, and where nothing is dropped behind the back of the scene it is not listed
any more and no link leads to it. -/
theorem destruction_is_final (behaved : scope.Behaved)
    (sent : ∀ dt, scope.hooks (.update dt) ∧ scope.hooks (.lateUpdate dt))
    {w₀ w : World Float32 B} {acting : List (Acting Float32)} (h : Reachable scope.fit w₀)
    (reached : scope.Leads ⟨[], w₀⟩ ⟨acting, w⟩) (e : EntityId) :
    (∀ respond : Impulse Float32 → SceneM Float32 B Unit,
      SceneM.performWith respond (.edit (.destroy e)) w = .ok () (w.destroy e) ∧
      SceneM.applyCommand respond ⟨some e, .destroy⟩ w = .ok () (w.destroy e) ∧
      ∀ f ∈ HostFunctions.table.functions, f.name = "DestroyActor" →
        ∀ args, w.find? (HostFunctions.text args 0) = some e →
          (SceneM.host respond).call f.body args w = .ok (.ok .void) (w.destroy e)) ∧
    scope.Steps ⟨acting, w⟩ ⟨acting, w.destroy e⟩ ∧
    (∀ acting' w', scope.Steps ⟨acting, w.destroy e⟩ ⟨acting', w'⟩ →
      (∀ depth request answer w'', scope.Permits request →
        SceneM.performWith (SceneM.respond depth) request w' = .ok answer w'' →
        scope.Steps ⟨acting, w.destroy e⟩ ⟨acting', w''⟩) ∧
      (acting' = [] → ∀ w'', SceneStep scope.fit w' w'' →
        scope.Steps ⟨acting, w.destroy e⟩ ⟨[], w''⟩)) ∧
    ∀ x, w.Under x e → (w.actor? x).isSome →
      (∀ y, scope.Leads ⟨acting, w.destroy e⟩ y → y.world.Condemned x) ∧
      (∀ y, scope.Steps ⟨acting, w.destroy e⟩ y → w.RunsOut x y.world) ∧
      (∀ v, scope.AfterSweep ⟨acting, w.destroy e⟩ v → v.world.entity? x = none) ∧
      ((∀ edit, scope.requests (.edit edit) → edit.Tidy) →
        ∀ v, scope.AfterSweep ⟨acting, w.destroy e⟩ v → v.world.Without x) := by
  have destroys : scope.Led ⟨acting, w⟩ acting (w.destroy e) :=
    Scope.Led.quiet (w := w) .refl (.edit (.destroy e) (scope.destroy e))
      (World.stages_apply w (.destroy e))
  have from₀ := reached.trans destroys.leads
  have fitting : FitScheduler scope.fit (w.destroy e) :=
    Scope.Leads.fitScheduler from₀ (h.fitScheduler behaved sent)
  have listed : (w.destroy e).Listed :=
    Scope.Leads.keeps (I := fun y => y.world.Listed) Change.listed from₀ (h.listed behaved sent)
  refine ⟨fun respond => ⟨rfl, rfl, fun f hf name args found => ?_⟩, destroys,
    fun acting' w' steps => ⟨fun depth request answer w'' permitted hrun => ?_, ?_⟩,
    fun x under actor => ?_⟩
  · exact HostFunctions.destroyActor_eq hf name respond found
  · have performed : Keeps (scope.Led ⟨acting', w'⟩ acting')
        (SceneM.performWith (SceneM.respond depth) request) :=
      Scope.led_perform (steps.leads.fitScheduler fitting) behaved depth permitted acting'
    exact steps.trans (performed w' .refl answer w'' hrun)
  · rintro rfl w'' step
    exact steps.trans (step.steps behaved sent (steps.leads.fitScheduler fitting))
  obtain ⟨a, ha⟩ := Option.isSome_iff_exists.1 actor
  have flagged : (w.destroy e).actor? x = some { a with state := .destroyed } := by
    rw [World.actor?_destroy, if_pos (World.mem_subtree_of_under under), ha, Option.map_some]
  have gone : ∀ v, scope.AfterSweep ⟨acting, w.destroy e⟩ v →
      scope.Leads ⟨acting, w.destroy e⟩ v ∧ v.world.entity? x = none := fun v after =>
    Scope.AfterSweep.gone behaved fitting listed flagged rfl after
  have condemned : ∀ y, scope.Leads ⟨acting, w.destroy e⟩ y → y.world.Condemned x :=
    fun y leads => .of_state (Scope.Leads.destroyed leads flagged rfl)
  have waiting : w.RunsOut x (w.destroy e) :=
    (World.RunsOut.refl w x).undisturbed (World.stages_apply w (.destroy e))
      (.apply w (.destroy e))
  refine ⟨condemned, fun y steps => steps.runsOut (fun z leads => (condemned z leads).active)
    waiting, fun v after => (gone v after).2, fun tidy v after => ?_⟩
  have wellFormed : v.world.WellFormed := by
    have start := h.changes behaved sent (I := fun y => y.world.WellFormed)
      (fun w entities actors => World.wellFormed_empty entities actors)
      (World.tidyInvariant_wellFormed.change tidy)
    exact Scope.Leads.keeps (I := fun y => y.world.WellFormed)
      (World.tidyInvariant_wellFormed.change tidy) (from₀.trans (gone v after).1) start
  exact wellFormed.without (gone v after).2

end Destruction

/-! ## An actor with something under it -/

/-- An actor under another one. -/
def troupe : Program Float32 Empty Unit := do
  let a ← Program.edit (.spawn (.named "a"))
  let _ ← Program.edit (.spawn { ActorSpec.named "b" with parent := some a })
  return ()

/-- An actor goes with the one above it. -/
theorem destruction_is_final_troupe :
    ∃ w w' : World Float32 Empty, Reachable (tidy Float32 Empty) w ∧ w.isActive ⟨1⟩ ∧
      (w.destroy ⟨0⟩).Condemned ⟨1⟩ ∧
      SceneM.sweep (SceneM.respond 3) (w.destroy ⟨0⟩) = .ok () w' ∧ w'.Without ⟨1⟩ := by
  have run : troupe.passes .bare fun _ w =>
      decide (⟨1⟩ ∈ w.children ⟨0⟩) && (w.actor? ⟨1⟩).isSome && w.isActive ⟨1⟩ &&
        passes (SceneM.sweep (SceneM.respond 3)) (w.destroy ⟨0⟩) fun _ _ => true := by
    decide +kernel
  obtain ⟨_, w, hrun, checked⟩ := Program.exists_of_passes run
  simp only [Bool.and_eq_true, decide_eq_true_eq] at checked
  obtain ⟨⟨⟨child, actor⟩, active⟩, swept⟩ := checked
  obtain ⟨_, w', hsweep, -⟩ := exists_of_passes swept
  have behaved : TidyBehavior Float32 Empty := ⟨fun b => b.elim, fun _ => trivial⟩
  have fit : tidy Float32 Empty Unit troupe := by
    refine Program.only_bind (Program.only_edit trivial) fun a => ?_
    exact Program.only_bind (Program.only_edit trivial) fun _ => Program.only_pure _
  have h : Reachable (Scope.tidy Float32 Empty).fit w :=
    .step (.empty rfl rfl rfl rfl) (.program fit hrun)
  obtain ⟨-, -, -, final⟩ := destruction_is_final behaved.behaved (fun _ => ⟨trivial, trivial⟩) h
    .refl ⟨0⟩
  obtain ⟨condemned, -, -, without⟩ := final ⟨1⟩ (.single child) actor
  refine ⟨w, w', h, active, condemned _ .refl, hsweep, ?_⟩
  exact without (fun _ allowed => allowed) ⟨[], w'⟩ ⟨[], _, 3, w', .refl, hsweep, .refl⟩

/-- An actor with something under it that is not an actor. -/
def scenery : Program Float32 Empty Unit := do
  let a ← Program.edit (.spawn (.named "a"))
  let t ← Program.edit (.spawnTransform ⟨0, 0, 0⟩ .identity ⟨1, 1, 1⟩)
  let _ ← Program.edit (.setParent t (some a))
  return ()

/-- A component that asks for another update of its actor while it is updated, destroys the actor,
and then asks for its state. -/
inductive Stubborn where
  | stubborn

instance : Behavior Float32 Stubborn where
  typeName _ := "Stubborn"
  react b e hook :=
    match hook with
    | .update _ => do
      let () ← Program.request (.updateActor e 1)
      let () ← Program.edit (.destroy e)
      .echo "state" (.ask (.state e)) fun _ => return b
    | _ => return b

/-- An actor with one such component. -/
def stubbornScene : Program Float32 Stubborn Unit := do
  let e ← Program.edit (.spawn (.named "a"))
  let _ ← Program.edit (.add e (.custom .stubborn))
  return ()

/-- What the journal has to say of updates and states. -/
inductive Sign where
  | updated
  | found (state : Option ActorState)
  deriving DecidableEq

/-- An update that begins, or the answer to a question for a state. -/
def sign? : Event Float32 Stubborn → Option Sign
  | .hook _ _ .began (.update _) => some .updated
  | .echoed _ (.ask (.state _)) state => some (.found state)
  | _ => none

/-- What destruction leaves behind. What is under an actor without being an actor outlives the
sweep; what is dropped before the sweep stays listed; and a component that was asked for an update
while it was updated acts on it after its actor has been destroyed. -/
theorem destruction_leaves_traces :
    (∃ w : World Float32 Empty, Reachable (tidy Float32 Empty) w ∧ w.Below ⟨1⟩ ⟨0⟩ ∧
      (w.actor? ⟨0⟩).isSome ∧
      (∃ w', SceneM.sweep (SceneM.respond 3) (w.destroy ⟨0⟩) = .ok () w' ∧
        (w'.entity? ⟨1⟩).isSome) ∧
      ∃ w', SceneM.sweep (SceneM.respond 3) ((w.destroy ⟨0⟩).despawn ⟨0⟩).2 = .ok () w' ∧
        ⟨0⟩ ∈ w'.actors) ∧
    ∃ w w' : World Float32 Stubborn, Reachable (Scope.everything Float32 Stubborn).fit w ∧
      w.noted sign? = [] ∧ SceneM.perform (.updateActor ⟨0⟩ 1) w = .ok () w' ∧
      w'.noted sign?
        = [.updated, .found (some .destroyed), .updated, .found (some .destroyed)] := by
  constructor
  · have run : scenery.passes .bare fun _ w =>
        decide (w.parent? ⟨1⟩ = some ⟨0⟩) && (w.actor? ⟨0⟩).isSome &&
          (passes (SceneM.sweep (SceneM.respond 3)) (w.destroy ⟨0⟩) fun _ w' =>
            (w'.entity? ⟨1⟩).isSome) &&
          passes (SceneM.sweep (SceneM.respond 3)) ((w.destroy ⟨0⟩).despawn ⟨0⟩).2 fun _ w' =>
            decide (⟨0⟩ ∈ w'.actors) := by
      decide +kernel
    obtain ⟨_, w, hrun, checked⟩ := Program.exists_of_passes run
    simp only [Bool.and_eq_true, decide_eq_true_eq] at checked
    obtain ⟨⟨⟨parent, actor⟩, swept⟩, swept'⟩ := checked
    obtain ⟨_, w', hsweep, there⟩ := exists_of_passes swept
    obtain ⟨_, w'', hsweep', listed⟩ := exists_of_passes swept'
    have fit : tidy Float32 Empty Unit scenery := by
      refine Program.only_bind (Program.only_edit trivial) fun a => ?_
      refine Program.only_bind (Program.only_edit trivial) fun t => ?_
      exact Program.only_bind (Program.only_edit trivial) fun _ => Program.only_pure _
    have h : Reachable (tidy Float32 Empty) w :=
      .step (.empty rfl rfl rfl rfl) (.program fit hrun)
    exact ⟨w, h, .single parent, actor, ⟨w', hsweep, there⟩, w'', hsweep',
      of_decide_eq_true listed⟩
  · have run : stubbornScene.passes .bare fun _ w => decide (w.noted sign? = []) &&
        passes (SceneM.perform (.updateActor ⟨0⟩ 1)) w fun _ w' => decide (w'.noted sign?
          = [.updated, .found (some .destroyed), .updated, .found (some .destroyed)]) := by
      decide +kernel
    obtain ⟨_, w, hrun, checked⟩ := Program.exists_of_passes run
    simp only [Bool.and_eq_true, decide_eq_true_eq] at checked
    obtain ⟨_, w', hupdate, signs⟩ := exists_of_passes checked.2
    have h : Reachable (Scope.everything Float32 Stubborn).fit w :=
      .step (.empty rfl rfl rfl rfl) (.program (Scope.fit_everything _) hrun)
    exact ⟨w, w', h, checked.1, hupdate, of_decide_eq_true signs⟩

end SheepScene
