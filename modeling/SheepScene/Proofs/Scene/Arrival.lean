import SheepScene.Proofs.Scene.Looking
import SheepScene.Proofs.Scene.Moments
import SheepScene.Proofs.Scene.Tending
import SheepScene.Proofs.Scene.Traits

/-!
# What an arriving mover disables

A mover that arrives in an update disables the first mover of its actor. That is the mover itself
when it is the first one. Otherwise it stays enabled, and the first mover is disabled in its place:
if that one was enabled and under way, its move is over at once, and its actor is put at its target.
Whichever it is, the update comes to an end and no other component changes
(`arriving_movers_disable_the_first`).
-/

set_option autoImplicit false

namespace SheepScene

variable {K B : Type} [Scalar K] [Behavior K B]

/-! ## Movers are in the slots of movers -/

/-- A component is a mover just when its slot is the slot of one. -/
def typed (K B : Type) : Trait K B where
  floor := 0
  places := []
  has _ _ kind c := kind = .mover ↔ ∃ m, c = .mover m

omit [Behavior K B] in
/-- Which kind of component a slot holds is a stable reading. -/
theorem stable_typed : (typed K B).Stable where
  carried h := h.trans ⟨fun _ => ⟨_, rfl⟩, fun _ => ⟨_, rfl⟩⟩
  ended h := h.trans ⟨fun _ => ⟨_, rfl⟩, fun _ => ⟨_, rfl⟩⟩
  restarted h := h.trans ⟨fun _ => ⟨_, rfl⟩, fun _ => ⟨_, rfl⟩⟩
  custom h := h.trans ⟨fun ⟨_, hm⟩ => (nomatch hm), fun ⟨_, hm⟩ => (nomatch hm)⟩

/-- No edit by itself puts another kind of component into a slot. -/
theorem suits_typed (x : Edit K B) : x.Suits (typed K B) := by
  cases x with
  | add e c =>
    intro n index _ _
    cases c with
    | mover m => exact ⟨fun _ => ⟨m, rfl⟩, fun _ => rfl⟩
    | listener | custom b => exact ⟨fun h => (nomatch h), fun ⟨_, hm⟩ => (nomatch hm)⟩
  | retarget e target duration done =>
    exact fun n index kind m _ h => h.trans ⟨fun _ => ⟨_, rfl⟩, fun _ => ⟨_, rfl⟩⟩
  | issueWait => exact fun n x kind c _ h => h
  | _ => trivial

/-- At any moment there is a mover in the slot of one, and no other component. -/
theorem AtMoment.mover_iff {fit : Fitness K B} {w : World K B} (h : AtMoment fit w) {e : EntityId}
    {index : Nat} {slot : Slot K B} (there : w.slot? e index = some slot) :
    slot.kind = .mover ↔ ∃ m, slot.component = some (.mover m) := by
  have had : (typed K B).Had (Scope.everything K B).fit [] w :=
    (Trait.kept_everything stable_typed suits_typed).lasting.moment (fun w entities _ _ _ =>
      ⟨.of_empty rfl rfl entities, Scope.fitScheduler_everything w⟩) h.everything
  obtain ⟨c, hc⟩ := Option.isSome_iff_exists.1 (h.rested (e, index) slot there).1
  have present : w.Present [] (e, index) c :=
    .inl (by rw [World.cell?, there, Option.map_some, hc])
  refine (had.1.each _ c present slot there).trans (exists_congr fun m => ?_)
  rw [hc, Option.some.injEq]

/-- At any moment threads can call fit functions only. -/
theorem AtMoment.fitScheduler {fit : Fitness K B}
    (custom : ∀ (b : B) e (hook : Hook K), fit B (Behavior.react b e hook))
    (observe : ∀ event, fit Unit (Behavior.observe event)) {w : World K B} (h : AtMoment fit w) :
    FitScheduler fit w := by
  have kept := Trait.kept_any (stable_typed (B := B)) suits_typed custom observe
  have had : (typed K B).Had fit [] w := by
    refine kept.lasting.moment (fun w entities _ _ scheduler => ?_) h
    refine ⟨.of_empty rfl rfl entities, fun s hs => ?_⟩
    cases scheduler.symm.trans hs
  exact had.2

/-! ## The first component of a type -/

omit [Scalar K] [Behavior K B] in
/-- Where there is a component of a type there is a first one. -/
theorem World.exists_first {w : World K B} {e : EntityId} {index : Nat} {slot : Slot K B}
    (there : w.slot? e index = some slot) : ∃ first ≤ index, ∃ slot',
      w.first? e slot.kind = some first ∧
        w.slot? e first = some slot' ∧ slot'.kind = slot.kind := by
  obtain ⟨slots, hslots, hindex⟩ := Option.bind_eq_some_iff.1 there
  obtain ⟨hlt, rfl⟩ := Array.getElem?_eq_some_iff.1 hindex
  cases hfirst : Slots.index? slots slots[index].kind with
  | none =>
    have := Array.findIdx?_eq_none_iff.1 hfirst slots[index] (Array.getElem_mem hlt)
    simp at this
  | some first =>
    obtain ⟨hlt', hkind, before⟩ := Array.findIdx?_eq_some_iff_getElem.1 hfirst
    refine ⟨first, ?_, slots[first], by rw [World.first?, hslots, Option.bind_some, hfirst], ?_,
      eq_of_beq hkind⟩
    · by_contra beyond
      exact absurd (beq_self_eq_true _) (before index (by omega))
    · rw [World.slot?, hslots, Option.bind_some, Array.getElem?_eq_getElem hlt']

/-! ## Handles being let go of -/

namespace Waits

/-- A handle that was issued or made for a number. -/
def Made (waits : Waits) : WaitHandle → Prop
  | .issued serial => serial < waits.issued.size
  | .named number => (waits.named.lookup number).isSome

/-- A handle that was made is complete once it is completed. -/
theorem isComplete_complete_made {waits : Waits} {h : WaitHandle} (made : waits.Made h) :
    (waits.complete h).isComplete h = true := by
  cases h with
  | issued serial => exact isComplete_complete_self made
  | named number =>
    obtain ⟨done, found⟩ := Option.isSome_iff_exists.1 made
    simp [complete, isComplete, lookup_complete, found]

/-- Completing a handle completes no other. -/
theorem isComplete_complete_other {waits : Waits} {h k : WaitHandle} (other : k ≠ h) :
    (waits.complete k).isComplete h = waits.isComplete h := by
  cases h with
  | issued serial => cases k with
    | issued s =>
      have different : s ≠ serial := fun same => other (same ▸ rfl)
      simp [complete, isComplete, different]
    | named _ => rfl
  | named number => cases k with
    | issued _ => rfl
    | named n =>
      have different : (number == n) = false := beq_false_of_ne fun same => other (same ▸ rfl)
      simp [complete, isComplete, lookup_complete, different]

end Waits

omit [Scalar K] [Behavior K B] in
/-- Dropping a mover completes the handle it holds. -/
theorem World.isComplete_dropComponent_made {w : World K B} {m : Mover K} {h : WaitHandle}
    (holds : m.done = some h) (made : w.waits.Made h) :
    (w.dropComponent (.mover m)).waits.isComplete h = true := by
  rw [dropComponent_eq, show (Component.mover m : Component K B).holds? = some h from holds]
  exact Waits.isComplete_complete_made made

omit [Scalar K] [Behavior K B] in
/-- Dropping a mover completes no handle but the one it holds. -/
theorem World.isComplete_dropComponent_other {w : World K B} {m : Mover K} {h : WaitHandle}
    (other : m.done ≠ some h) :
    (w.dropComponent (.mover m)).waits.isComplete h = w.waits.isComplete h := by
  rw [dropComponent_eq]
  change ((m.done.map w.waits.complete).getD w.waits).isComplete h = _
  cases holds : m.done with
  | none => rfl
  | some k => exact Waits.isComplete_complete_other fun same => other (holds.trans (same ▸ rfl))

/-! ## Moving an actor along -/

/-- Worlds with the same tree and the same actors. Components may differ. -/
structure SameActors (w w' : World K B) : Prop extends SameScene w w' where
  actor? : ∀ e, w'.actor? e = w.actor? e

namespace SameActors

variable {w v : World K B}

omit [Scalar K] [Behavior K B] in
/-- Having the same actors is reflexive. -/
theorem refl (w : World K B) : SameActors w w :=
  ⟨.refl w, fun _ => rfl⟩

omit [Scalar K] [Behavior K B] in
/-- A note in the journal leaves all actors the same. -/
theorem record (h : SameActors w v) (event : Event K B) : SameActors w (v.record event) :=
  ⟨h.toSameScene.trans ⟨rfl, fun _ => rfl, rfl, rfl, rfl⟩, h.actor?⟩

omit [Scalar K] [Behavior K B] in
/-- A change within a slot leaves all actors the same. -/
theorem modifySlot (h : SameActors w v) (e : EntityId) (index : Nat)
    (f : Slot K B → Slot K B) : SameActors w (v.modifySlot e index f) :=
  ⟨h.toSameScene.trans (.modifySlots v e _),
    fun x => (World.actor?_modifySlot v e index f x).trans (h.actor? x)⟩

omit [Scalar K] [Behavior K B] in
/-- Dropping a component leaves all actors the same. -/
theorem dropComponent (w : World K B) (c : Component K B) : SameActors w (w.dropComponent c) := by
  refine ⟨.dropComponent w c, fun x => ?_⟩
  rw [World.dropComponent_eq]
  rfl

omit [Scalar K] [Behavior K B] in
/-- Where the actors are the same, the same ones are active. -/
theorem isActive (h : SameActors w v) (e : EntityId) : v.isActive e = w.isActive e := by
  refine World.isActive_congr (w := w) h.size (fun x => ?_) h.actor? e
  rw [World.parent?, h.transform?]
  rfl

end SameActors

/-- Worlds between which a mover has asked where its actor is, and has put it at a point. -/
def World.Carried (w w' : World K B) (e : EntityId) (start aim : Vec3 K) : Prop :=
  ∃ v v', SameActors w v ∧ v.worldPosition e = (some start, v') ∧
    SameActors (v'.placeInWorld e (.position aim)) w'

omit [Behavior K B] in
/-- Asking where an actor is has an answer. -/
theorem World.exists_located {w : World K B} {e : EntityId} (placed : (w.transform? e).isSome) :
    ∃ start w', w.worldPosition e = (some start, w') ∧ OnlyPlaces w w' := by
  obtain ⟨matrix, hmatrix, -⟩ := exists_matrix?_localToWorld placed
  refine ⟨matrix.origin, (w.worldPosition e).2, Prod.ext ?_ rfl,
    (settles_worldPosition w e).sameLinks.onlyPlaces⟩
  change (w.localToWorld e).1.map Mat4.origin = _
  rw [hmatrix]
  rfl

omit [Behavior K B] in
/-- A component that is out of its slot for a hook finds where its actor is, and can put it
somewhere else. Its slot is as it left it then. -/
theorem World.exists_departed {w : World K B} {e : EntityId} {index : Nat} {slot : Slot K B}
    (placed : (w.transform? e).isSome) (there : w.slot? e index = some slot) (hook : Hook K) :
    ∃ v start v', v = (w.setComponent e index none).record (.hook e index .began hook) ∧
      SameActors w v ∧ v.worldPosition e = (some start, v') ∧ ∀ aim,
        w.Reslotted (v'.placeInWorld e (.position aim)) e index { slot with component := none } ∧
        (v'.placeInWorld e (.position aim)).first? e .mover = w.first? e .mover ∧
        (v'.placeInWorld e (.position aim)).waits = w.waits := by
  obtain ⟨v, hv⟩ : ∃ v, v = (w.setComponent e index none).record (.hook e index .began hook) :=
    ⟨_, rfl⟩
  have out : w.Reslotted v e index { slot with component := none } :=
    hv ▸ ((Reslotted.refl there).modifySlot _).record _
  have waits : v.waits = w.waits := hv ▸ rfl
  have first : v.first? e .mover = w.first? e .mover := by
    rw [hv]
    refine firstOf_modifySlot e e index ?_ .mover
    exact fun _ => rfl
  have same : SameActors w v := hv ▸ ((SameActors.refl w).modifySlot e index _).record _
  obtain ⟨start, v', found, located⟩ := exists_located (same.transform? e ▸ placed)
  refine ⟨v, start, v', hv, same, found, fun aim => ?_⟩
  have moved := located.trans (sameLinks_placeInWorld v' e (.position aim)).onlyPlaces
  refine ⟨out.congr moved.slots?, ?_, ?_⟩
  · rw [first?, moved.slots?, ← first]
  · rw [← waits, moved.rest]

/-! ## An arrival step by step -/

/-- A mover that has been disabled: its move is over. -/
def Mover.disabled (m : Mover K) : Mover K :=
  if m.finished then m else m.ended

section Runs

open World

variable {e : EntityId}

/-- A mover that is disabled leaves all slots as they are, and lets go of its handle unless its move
is over. -/
theorem Mover.run_disabled (respond : Impulse K → SceneM K B Unit) (w : World K B) (e : EntityId)
    (m : Mover K) : ∃ w',
      ((Component.mover m : Component K B).react e .disable).run (SceneM.performWith respond) w
        = .ok (.mover m.disabled) w' ∧
      (∀ x, w'.slots? x = w.slots? x) ∧
      w'.waits = if m.finished then w.waits else (w.dropComponent (.mover m)).waits := by
  cases ended : m.finished with
  | true =>
    refine ⟨w, ?_, fun _ => rfl, rfl⟩
    rw [disabled, if_pos ended]
    exact run_disable_over ended
  | false =>
    refine ⟨(w.placeInWorld e (.position m.target)).dropComponent (.mover m), ?_, fun x => ?_, ?_⟩
    · rw [disabled, ended]
      exact run_disable ended
    · have placed := (sameLinks_placeInWorld w e (.position m.target)).onlyPlaces
      exact ((SameSlots.dropComponent _ _).slots x).trans (placed.slots? x)
    · rw [if_neg nofun, dropComponent_eq, dropComponent_eq,
        (sameLinks_placeInWorld w e (.position m.target)).rest]

section First

variable (depth : Nat) {w : World K B} {first : Nat} {slot : Slot K B} {m : Mover K}
  (isFirst : w.first? e .mover = some first)
  (there : w.slot? e first = some slot) (idle : slot.deferred = [])
  (holds : slot.component = some (.mover m))
include isFirst there idle holds

/-- Disabling the first mover of an actor comes to an end. If it was enabled its move is over
then. -/
theorem SceneM.run_setDisabled : ∃ w',
    SceneM.setEnabled (SceneM.respond (depth + 1)) e .mover false w = .ok () w' ∧
    w.Reslotted w' e first { slot with
      enabled := false
      component := some (.mover (if slot.enabled then m.disabled else m)) } ∧
    w'.waits = if slot.enabled ∧ m.finished = false then (w.dropComponent (.mover m)).waits
      else w.waits := by
  cases on : slot.enabled with
  | false =>
    refine ⟨w, on ▸ setEnabled_same isFirst there, .refl ?_, (if_neg (by simp)).symm⟩
    obtain ⟨kind, enabled, component, deferred⟩ := slot
    cases on
    cases holds
    exact there
  | true =>
    have off := (Reslotted.refl there).modifySlot fun slot => { slot with enabled := false }
    have out := (off.modifySlot fun slot => { slot with component := none }).record
      (.hook e first .began .disable)
    obtain ⟨v, run, slots, waits⟩ := Mover.run_disabled (respond depth)
      (((w.modifySlot e first fun slot => { slot with enabled := false }).setComponent e first
        none).record (.hook e first .began .disable)) e m
    refine ⟨_, (setEnabled_other isFirst there (by simp [on])).trans
      (respond_of_run off.here holds run (out.congr slots).here idle),
      ((out.congr slots).record _).modifySlot _, ?_⟩
    refine waits.trans ?_
    cases m.finished with
    | true => rfl
    | false =>
      rw [if_neg nofun, if_pos ⟨rfl, rfl⟩, dropComponent_eq, dropComponent_eq]
      rfl

end First

section Arriving

variable (depth : Nat) {w : World K B} {index : Nat} {slot : Slot K B} {m : Mover K} {dt : K}
  (placed : (w.transform? e).isSome) (there : w.slot? e index = some slot)
  (going : m.finished = false) (far : m.arrives dt = true)
include placed there going far

/-- A mover that arrives lets go of its handle while it is out of its slot, and disables the first
mover of its actor then. -/
theorem SceneM.run_approach (respond : Impulse K → SceneM K B Unit) : ∃ start u,
    w.Reslotted u e index { slot with component := none } ∧
    u.first? e .mover = w.first? e .mover ∧
    u.waits = (w.dropComponent (.mover m)).waits ∧
    w.Carried u e start (m.waypoint start dt) ∧
    ∀ u', setEnabled respond e .mover false u = .ok () u' →
      ((Component.mover m : Component K B).react e (.update dt)).run (performWith respond)
          ((w.setComponent e index none).record (.hook e index .began (.update dt)))
        = .ok (.mover (m.carried start dt).ended) u' := by
  obtain ⟨v, start, v', hv, same, found, put⟩ := exists_departed placed there (.update dt)
  rw [← hv]
  obtain ⟨out, first, waits⟩ := put (m.waypoint start dt)
  have dropped := (SameSlots.dropComponent (v'.placeInWorld e (.position (m.waypoint start dt)))
    (.mover m)).slots
  refine ⟨start, _, out.congr dropped, ?_, ?_, ⟨v, v', same, found, .dropComponent _ (.mover m)⟩,
    fun u' => Mover.run_arrival going found far⟩
  · rw [first?, dropped, ← first]
  · rw [dropComponent_eq, dropComponent_eq, waits]

/-- A first mover that arrives is disabled while it executes. It is told so when it has come to an
end, which has no effect then. -/
theorem SceneM.run_arriving_first (idle : slot.deferred = [])
    (holds : slot.component = some (.mover m)) (enabled : slot.enabled = true)
    (isFirst : w.first? e .mover = some index) :
    ∃ start w', SceneM.respond (depth + 2) (.hook e index (.update dt)) w = .ok () w' ∧
      (∀ y : EntityId × Nat, w'.slot? y.1 y.2 = if y = (e, index) then some { slot with
          enabled := false
          component := some (.mover (m.carried start dt).ended) }
        else w.slot? y.1 y.2) ∧
      w'.waits = (w.dropComponent (.mover m)).waits ∧
      w.Carried w' e start (m.waypoint start dt) := by
  obtain ⟨kind, _, _, _⟩ := slot
  cases enabled
  cases holds
  cases idle
  obtain ⟨start, u, out, first, waits, carried, run⟩ :=
    run_approach placed there going far (respond (depth + 1))
  have off := out.modifySlot fun slot => { slot with enabled := false }
  have waiting := (off.modifySlot fun slot =>
    { slot with deferred := slot.deferred ++ [.disable] }).record
      (.hook e index .deferred .disable)
  have again := ((waiting.record (.hook e index .ended (.update dt))).modifySlot fun slot =>
    { slot with deferred := [] }).record (.hook e index .began .disable)
  have disabled : setEnabled (respond (depth + 1)) e .mover false u = _ :=
    (setEnabled_other (first.trans isFirst) out.here (nofun : true ≠ false)).trans
      (respond_absent off.here rfl)
  obtain ⟨rounds, limit⟩ : ∃ rounds, hookLimit = rounds + 2 := ⟨_, rfl⟩
  have served : serve _ (rounds + 2) e index (.mover m) (.update dt) _ = _ :=
    (serve_again (run _ disabled) waiting.here rfl).trans
      (serve_last (Mover.run_disable_over rfl) again.here rfl)
  rw [← limit] at served
  refine ⟨start, _, (respond_present there rfl).trans served,
    ((again.record (.hook e index .ended .disable)).modifySlot _).slot?_eq, waits, ?_⟩
  obtain ⟨v, v', same, found, put⟩ := carried
  exact ⟨v, v', same, found, (((((((put.modifySlot _ _ _).modifySlot _ _ _).record _).record
    _).modifySlot _ _ _).record _).record _).modifySlot _ _ _⟩

/-- A mover that arrives where it is not the first one disables that one, and goes back into its
slot as it is. -/
theorem SceneM.run_arriving_later (idle : slot.deferred = [])
    (holds : slot.component = some (.mover m)) {first : Nat} {slot' : Slot K B} {n : Mover K}
    (isFirst : w.first? e .mover = some first)
    (later : first ≠ index) (there' : w.slot? e first = some slot') (idle' : slot'.deferred = [])
    (holds' : slot'.component = some (.mover n)) :
    ∃ start w', SceneM.respond (depth + 2) (.hook e index (.update dt)) w = .ok () w' ∧
      (∀ y : EntityId × Nat, w'.slot? y.1 y.2 = if y = (e, index) then some { slot with
          component := some (.mover (m.carried start dt).ended) }
        else if y = (e, first) then some { slot' with
          enabled := false
          component := some (.mover (if slot'.enabled then n.disabled else n)) }
        else w.slot? y.1 y.2) ∧
      w'.waits = if slot'.enabled ∧ n.finished = false
        then ((w.dropComponent (.mover m)).dropComponent (.mover n)).waits
        else (w.dropComponent (.mover m)).waits := by
  obtain ⟨start, u, out, first', waits, -, run⟩ :=
    run_approach placed there going far (respond (depth + 1))
  have apart : (e, first) ≠ (e, index) := fun same => later (Prod.ext_iff.1 same).2
  have still : u.slot? e first = some slot' := (out.elsewhere (e, first) apart).trans there'
  obtain ⟨v, disabled, changed, waits'⟩ :=
    run_setDisabled depth (first'.trans isFirst) still idle' holds'
  have here : v.slot? e index = some { slot with component := none } :=
    (changed.elsewhere (e, index) apart.symm).trans out.here
  have back := ((Reslotted.refl here).record (.hook e index .ended (.update dt))).modifySlot
    fun slot => { slot with component := some (.mover (m.carried start dt).ended) }
  refine ⟨start, _, respond_of_run there holds (run v disabled) here idle, fun y => ?_, ?_⟩
  · refine (back.slot?_eq y).trans ?_
    split
    · rfl
    · rename_i hy
      rw [changed.slot?_eq y, out.elsewhere y hy]
  · refine waits'.trans ?_
    rw [dropComponent_eq u, dropComponent_eq (w.dropComponent _), waits]

end Arriving

end Runs

/-! ## How the scene is afterwards -/

/-- How a scene is after a mover at a place of an actor has arrived, when the first mover of the
actor is at another place or the same. -/
structure World.Arrived (w w' : World K B) (e : EntityId) (index first : Nat) (m : Mover K)
    (dt : K) : Prop where
  /-- The first mover is disabled, and no other component is switched. -/
  enabled : ∀ y : EntityId × Nat, (w'.slot? y.1 y.2).map (·.enabled)
    = if y = (e, first) then some false else (w.slot? y.1 y.2).map (·.enabled)
  /-- The mover that arrived is over. -/
  arrived : ∃ start, w'.cell? (e, index) = some (some (.mover (m.carried start dt).ended))
  /-- Another mover that is the first one is over as well, if it was enabled. -/
  ended : first ≠ index → ∀ n, w.cell? (e, first) = some (some (.mover n)) →
    w'.cell? (e, first) = some (some (.mover (if w.slotEnabled e first then n.disabled else n)))
  /-- All other components are as they were. -/
  others : ∀ y, y ≠ (e, index) → y ≠ (e, first) → w'.cell? y = w.cell? y
  released : ∀ h, m.done = some h → w.waits.Made h → w'.waits.isComplete h = true
  /-- Handles of other movers are as they were, but for the handle of the first one. -/
  waiting : ∀ h, m.done ≠ some h →
    (first ≠ index → ∀ n, w.cell? (e, first) = some (some (.mover n)) → n.done ≠ some h) →
    w'.waits.isComplete h = w.waits.isComplete h

section Arrived

open World

variable {w w' : World K B} {e : EntityId} {index first : Nat} {slot slot' : Slot K B}
  {m n : Mover K} {start : Vec3 K} {dt : K}

omit [Behavior K B] in
/-- Where the mover that arrives is the first of its actor, it is switched off itself. -/
theorem World.arrived_first
    (slots : ∀ y : EntityId × Nat, w'.slot? y.1 y.2 = if y = (e, index) then some { slot with
        enabled := false
        component := some (.mover (m.carried start dt).ended) }
      else w.slot? y.1 y.2)
    (waits : w'.waits = (w.dropComponent (.mover m)).waits) : w.Arrived w' e index index m dt where
  enabled y := by
    rw [slots]
    split <;> rfl
  arrived := ⟨start, by rw [cell?, slots, if_pos rfl]; rfl⟩
  ended other := absurd rfl other
  others y hy _ := by rw [cell?, slots, if_neg hy]; rfl
  released h holds made := waits ▸ isComplete_dropComponent_made holds made
  waiting h other _ := waits ▸ isComplete_dropComponent_other other

omit [Behavior K B] in
/-- Where it is not, the first mover is switched off in its place. -/
theorem World.arrived_later (there : w.slot? e index = some slot) (later : first ≠ index)
    (there' : w.slot? e first = some slot') (holds' : slot'.component = some (.mover n))
    (slots : ∀ y : EntityId × Nat, w'.slot? y.1 y.2 = if y = (e, index) then some { slot with
        component := some (.mover (m.carried start dt).ended) }
      else if y = (e, first) then some { slot' with
        enabled := false
        component := some (.mover (if slot'.enabled then n.disabled else n)) }
      else w.slot? y.1 y.2)
    (waits : w'.waits = if slot'.enabled ∧ n.finished = false
      then ((w.dropComponent (.mover m)).dropComponent (.mover n)).waits
      else (w.dropComponent (.mover m)).waits) : w.Arrived w' e index first m dt := by
  have apart : (e, first) ≠ (e, index) := fun same => later (Prod.ext_iff.1 same).2
  have cell : w.cell? (e, first) = some (some (.mover n)) := by
    rw [cell?, there', Option.map_some, holds']
  refine ⟨fun y => ?_, ⟨start, by rw [cell?, slots, if_pos rfl]; rfl⟩, fun _ n' hn' => ?_,
    fun y hy hy' => by rw [cell?, slots, if_neg hy, if_neg hy']; rfl, fun h holds made => ?_,
    fun h other others => ?_⟩
  · rw [slots]
    by_cases hy : y = (e, index)
    · rw [if_pos hy, if_neg (hy ▸ apart.symm), hy, there]
      rfl
    · rw [if_neg hy]
      split <;> rfl
  · cases cell.symm.trans hn'
    rw [cell?, slots, if_neg apart, if_pos rfl, slotEnabled_of_slot? there']
    rfl
  · have complete := isComplete_dropComponent_made (w := w) holds made
    rw [waits]
    split
    · exact (SameSlots.dropComponent _ _).progress.complete h complete
    · exact complete
  · have kept := isComplete_dropComponent_other (w := w) other
    rw [waits]
    split
    · exact (isComplete_dropComponent_other (others later n cell)).trans kept
    · exact kept

end Arrived

/-- A mover that arrives in an update disables the first mover of its actor. -/
theorem arriving_movers_disable_the_first {fit : Fitness K B} {w : World K B} (h : AtMoment fit w)
    {e : EntityId} {index : Nat} {slot : Slot K B} {m : Mover K} {dt : K}
    (actor : (w.actor? e).isSome) (there : w.slot? e index = some slot)
    (enabled : slot.enabled = true) (holds : slot.component = some (.mover m))
    (going : m.finished = false) (far : m.arrives dt = true) : ∃ first w', first ≤ index ∧
      w.first? e .mover = some first ∧
      SceneM.dispatch (SceneM.respond SceneM.hookLimit) e (.update dt) index w = .ok () w' ∧
      w.Arrived w' e index first m dt := by
  have placed := h.traceable.placed e actor
  have idle := (h.rested (e, index) slot there).2
  have kind := (h.mover_iff there).2 ⟨m, holds⟩
  obtain ⟨first, le, slot', isFirst, there', kind'⟩ := World.exists_first there
  rw [kind] at isFirst kind'
  obtain ⟨n, holds'⟩ := (h.mover_iff there').1 kind'
  obtain ⟨depth, limit⟩ : ∃ depth, SceneM.hookLimit = depth + 2 := ⟨_, rfl⟩
  have dispatched : ∀ {w'}, SceneM.respond (depth + 2) (.hook e index (.update dt)) w = .ok () w' →
      SceneM.dispatch (SceneM.respond SceneM.hookLimit) e (.update dt) index w = .ok () w' := by
    intro w' run
    rw [SceneM.dispatch_eq there, if_pos enabled, limit]
    exact run
  by_cases same : first = index
  · subst same
    obtain ⟨start, w', run, slots, waits, -⟩ := SceneM.run_arriving_first depth placed there
      going far idle holds enabled isFirst
    exact ⟨first, w', le, isFirst, dispatched run, World.arrived_first slots waits⟩
  · obtain ⟨start, w', run, slots, waits⟩ := SceneM.run_arriving_later depth placed there
      going far idle holds isFirst same there' (h.rested (e, first) slot' there').2 holds'
    exact ⟨first, w', le, isFirst, dispatched run,
      World.arrived_later there same there' holds' slots waits⟩

/-- Whether there is a mover at a place that passes a check. -/
def World.hasMover (w : World K B) (e : EntityId) (index : Nat)
    (check : Slot K B → Mover K → Bool) : Bool :=
  match w.slot? e index with
  | none => false
  | some slot => match slot.component with
    | none => false
    | some (.mover m) => check slot m
    | some .listener => false
    | some (.custom _) => false

omit [Scalar K] [Behavior K B] in
/-- A mover found by a search stands in a slot that passes the check. -/
theorem World.exists_of_hasMover {w : World K B} {e : EntityId} {index : Nat}
    {check : Slot K B → Mover K → Bool} (h : w.hasMover e index check = true) :
    ∃ slot m, w.slot? e index = some slot ∧ slot.component = some (.mover m) ∧
      check slot m = true := by
  unfold hasMover at h
  split at h
  · cases h
  · rename_i slot there
    split at h
    · cases h
    · rename_i m holds
      exact ⟨slot, m, there, holds, h⟩
    · cases h
    · cases h

/-- Two movers on one actor, the second one of which is due first. -/
def rivals : Program Float32 Empty Unit := do
  let e ← Program.edit (.spawn (.named "a"))
  let slow ← Program.edit (.nameWait 1)
  let _ ← Program.edit (.add e (.mover (.start ⟨8, 0, 0⟩ 100 .linear (some slow))))
  let fast ← Program.edit (.nameWait 2)
  let _ ← Program.edit (.add e (.mover (.start ⟨0, 8, 0⟩ 1 .linear (some fast))))
  return ()

/-- In an update the second mover arrives. It is enabled afterwards, and the first one is not. -/
theorem exists_rivals : ∃ (w : World Float32 Empty) (slot : Slot Float32 Empty)
    (m : Mover Float32) (w' : World Float32 Empty),
    AtMoment (Scope.everything Float32 Empty).fit w ∧ w.isActive ⟨0⟩ = true ∧
      w.slot? ⟨0⟩ 1 = some slot ∧ slot.enabled = true ∧ slot.component = some (.mover m) ∧
      m.finished = false ∧ m.arrives 1 = true ∧
      SceneM.dispatch (SceneM.respond SceneM.hookLimit) ⟨0⟩ (.update 1) 1 w = .ok () w' ∧
      w'.slotEnabled ⟨0⟩ 0 = false ∧ w'.slotEnabled ⟨0⟩ 1 = true := by
  have run : rivals.passes .bare fun _ w => w.isActive ⟨0⟩ && w.hasMover ⟨0⟩ 1 fun slot m =>
      slot.enabled && !m.finished && m.arrives 1 &&
        match SceneM.dispatch (SceneM.respond SceneM.hookLimit) ⟨0⟩ (.update 1) 1 w with
        | .ok () w' => !w'.slotEnabled ⟨0⟩ 0 && w'.slotEnabled ⟨0⟩ 1
        | .error _ _ => false := by decide +kernel
  obtain ⟨_, w, hrun, checked⟩ := Program.exists_of_passes run
  have h : AtMoment (Scope.everything Float32 Empty).fit w := Reachable.moment
    (.step (.empty rfl rfl rfl rfl) (.program (Scope.fit_everything rivals) hrun))
  rw [Bool.and_eq_true] at checked
  obtain ⟨active, checked⟩ := checked
  obtain ⟨slot, m, there, holds, checked⟩ := World.exists_of_hasMover checked
  simp only [Bool.and_eq_true, Bool.not_eq_true'] at checked
  obtain ⟨⟨⟨enabled, going⟩, far⟩, checked⟩ := checked
  split at checked
  · rename_i w' dispatched
    rw [Bool.and_eq_true, Bool.not_eq_true'] at checked
    exact ⟨w, slot, m, w', h, active, there, enabled, holds, going, far, dispatched, checked⟩
  · cases checked

/-- The rival that arrives disables the first mover. -/
theorem arriving_movers_disable_the_first_rivals : ∃ (w : World Float32 Empty)
    (slot : Slot Float32 Empty) (m : Mover Float32),
    AtMoment (Scope.everything Float32 Empty).fit w ∧ w.slot? ⟨0⟩ 1 = some slot ∧
      slot.component = some (.mover m) ∧ m.arrives 1 = true ∧
      ∃ first w', first ≤ 1 ∧
        w.first? ⟨0⟩ .mover = some first ∧
        SceneM.dispatch (SceneM.respond SceneM.hookLimit) ⟨0⟩ (.update 1) 1 w = .ok () w' ∧
        w.Arrived w' ⟨0⟩ 1 first m 1 := by
  obtain ⟨w, slot, m, -, h, active, there, enabled, holds, going, far, -⟩ := exists_rivals
  have actor : (w.actor? ⟨0⟩).isSome := (World.isActive_iff.1 active).1
  exact ⟨w, slot, m, h, there, holds, far,
    arriving_movers_disable_the_first h actor there enabled holds going far⟩

/-- A mover that arrives need not be disabled itself, and may disable another one. -/
theorem arriving_movers_may_stay_enabled : ¬ ∀ w : World Float32 Empty,
    AtMoment (Scope.everything Float32 Empty).fit w → ∀ e index slot m dt w', w.isActive e = true →
      w.slot? e index = some slot → slot.enabled = true → slot.component = some (.mover m) →
      m.finished = false → m.arrives dt = true →
      SceneM.dispatch (SceneM.respond SceneM.hookLimit) e (.update dt) index w = .ok () w' →
      w'.slotEnabled e index = false ∧
        ∀ other, other ≠ index → w'.slotEnabled e other = w.slotEnabled e other := by
  intro claim
  obtain ⟨w, slot, m, w', h, active, there, enabled, holds, going, far, dispatched, -, stays⟩ :=
    exists_rivals
  have alone := claim w h ⟨0⟩ 1 slot m 1 w' active there enabled holds going far dispatched
  cases stays.symm.trans alone.1

end SheepScene
