import SheepScene.Proofs.Scene.Cells

/-!
# Serving hooks

A component that is sent a hook leaves its slot, acts, serves the hooks that were put off in the
meantime, and goes back. Here such a service is followed step by step: one lemma for each way in
which a round can go on, one for each way in which the first component of a type can be switched,
and one for each hook that a mover acts on. So it can be shown that a hook is served at all, and how
the scene is afterwards.
-/

set_option autoImplicit false

namespace SheepScene

variable {K B : Type} [Scalar K]

/-! ## Movers as time goes by -/

namespace Mover

/-- A mover whose move is over. -/
def ended (m : Mover K) : Mover K :=
  { m with finished := true, done := none }

/-- A mover some time later, if it begins at a point where it has not begun yet. -/
def carried (m : Mover K) (start : Vec3 K) (dt : K) : Mover K :=
  { m with origin := some (m.origin.getD start), elapsed := m.elapsed + dt }

/-- Where a mover puts its actor some time later. -/
def waypoint (m : Mover K) (start : Vec3 K) (dt : K) : Vec3 K :=
  (m.origin.getD start).lerp m.target (m.easing.ease (m.carried start dt).progress)

/-- Whether a mover is at its target some time later. -/
def arrives (m : Mover K) (dt : K) : Bool :=
  Scalar.le (1 : K) (m.carried m.target dt).progress

end Mover

/-! ## One slot changing -/

namespace World

variable {w v v' : World K B} {e : EntityId} {index : Nat} {slot : Slot K B}

omit [Scalar K] in
/-- Each slot is as it was if all are. -/
theorem slot?_congr (same : v.slots? e = w.slots? e) (index : Nat) :
    v.slot? e index = w.slot? e index := by
  rw [slot?, same]
  rfl

/-- The place of the first component of a type on an actor. -/
abbrev first? (w : World K B) (e : EntityId) (kind : ComponentKind) : Option Nat :=
  (w.slots? e).bind fun slots => Slots.index? slots kind

/-- Worlds that have the same slots but for one, and what that one is like in the second world. -/
structure Reslotted (w v : World K B) (e : EntityId) (index : Nat) (slot : Slot K B) : Prop where
  here : v.slot? e index = some slot
  elsewhere : ∀ y : EntityId × Nat, y ≠ (e, index) → v.slot? y.1 y.2 = w.slot? y.1 y.2

namespace Reslotted

omit [Scalar K] in
/-- A slot that is as it was has not changed, and neither have the others. -/
theorem refl (there : w.slot? e index = some slot) : w.Reslotted w e index slot :=
  ⟨there, fun _ _ => rfl⟩

omit [Scalar K] in
/-- Only one slot has changed as long as no further one does. -/
theorem congr (h : w.Reslotted v e index slot) (same : ∀ x, v'.slots? x = v.slots? x) :
    w.Reslotted v' e index slot :=
  ⟨(slot?_congr (same e) index).trans h.here,
    fun y hy => (slot?_congr (same y.1) y.2).trans (h.elsewhere y hy)⟩

omit [Scalar K] in
/-- A note in the journal changes no further slot. -/
theorem record (h : w.Reslotted v e index slot) (event : Event K B) :
    w.Reslotted (v.record event) e index slot :=
  h.congr fun _ => rfl

omit [Scalar K] in
/-- Changing the same slot changes no further one. -/
theorem modifySlot (h : w.Reslotted v e index slot) (f : Slot K B → Slot K B) :
    w.Reslotted (v.modifySlot e index f) e index (f slot) := by
  refine ⟨?_, fun y hy => ?_⟩
  · exact (slot?_modifySlot v e index f (e, index)).trans (by rw [if_pos rfl, h.here]; rfl)
  · exact (slot?_modifySlot v e index f y).trans ((if_neg hy).trans (h.elsewhere y hy))

omit [Scalar K] in
/-- What all slots are like when one has changed. -/
theorem slot?_eq (h : w.Reslotted v e index slot) (y : EntityId × Nat) :
    v.slot? y.1 y.2 = if y = (e, index) then some slot else w.slot? y.1 y.2 := by
  split
  · rename_i hy
    rw [hy]
    exact h.here
  · rename_i hy
    exact h.elsewhere y hy

end Reslotted

end World

variable [Behavior K B]

open World

/-! ## Rounds -/

namespace SceneM

section Rounds

variable {perform : Performer K B} {rounds : Nat} {w w' : World K B} {e : EntityId} {index : Nat}
  {hook : Hook K} {component component' : Component K B} {slot : Slot K B}

section Round

variable
  (run : (component.react e hook).run perform (w.record (.hook e index .began hook))
    = .ok component' w')
  (there : w'.slot? e index = some slot)
include run there

/-- After a round in which no hook was put off the component goes back into its slot. -/
theorem serve_last (nothing : slot.deferred = []) :
    serve perform (rounds + 1) e index component hook w
      = .ok () ((w'.record (.hook e index .ended hook)).setComponent e index
          (some component')) := by
  unfold serve
  refine (bind_of_ok rfl).trans ((bind_of_ok run).trans ((bind_of_ok rfl).trans ?_))
  refine (bind_of_ok (t := w'.record (.hook e index .ended hook)) rfl).trans ?_
  rw [show (w'.record (.hook e index .ended hook)).slot? e index = some slot from there]
  dsimp only
  rw [nothing]
  rfl

/-- After a round in which a hook was put off the component goes on with it. -/
theorem serve_again {next : Hook K} {deferred : List (Hook K)}
    (waiting : slot.deferred = next :: deferred) :
    serve perform (rounds + 1) e index component hook w
      = serve perform rounds e index component' next
          ((w'.record (.hook e index .ended hook)).modifySlot e index fun slot =>
            { slot with deferred }) := by
  conv_lhs => unfold serve
  refine (bind_of_ok rfl).trans ((bind_of_ok run).trans ((bind_of_ok rfl).trans ?_))
  refine (bind_of_ok (t := w'.record (.hook e index .ended hook)) rfl).trans ?_
  rw [show (w'.record (.hook e index .ended hook)).slot? e index = some slot from there]
  dsimp only
  rw [waiting]
  rfl

end Round

variable {depth : Nat} (there : w.slot? e index = some slot)
include there

/-- A component in its slot leaves it to serve a hook. -/
theorem respond_present (present : slot.component = some component) :
    respond (depth + 1) (.hook e index hook) w
      = serve (performWith (respond depth)) hookLimit e index component hook
          (w.setComponent e index none) := by
  conv_lhs => unfold respond
  refine (bind_of_ok (t := w) rfl).trans ?_
  rw [there]
  dsimp only
  rw [present]
  exact bind_of_ok (t := w.setComponent e index none) rfl

/-- A hook for a component that is executing is put off. -/
theorem respond_absent (absent : slot.component = none) :
    respond (depth + 1) (.hook e index hook) w
      = .ok () ((w.modifySlot e index fun slot =>
          { slot with deferred := slot.deferred ++ [hook] }).record
            (.hook e index .deferred hook)) := by
  conv_lhs => unfold respond
  refine (bind_of_ok (t := w) rfl).trans ?_
  rw [there]
  dsimp only
  rw [absent]
  rfl

/-- A component is served a hook by what it does out of its slot, if no hook is put off. -/
theorem respond_of_run (present : slot.component = some component) {slot' : Slot K B}
    (run : (component.react e hook).run (performWith (respond depth))
      ((w.setComponent e index none).record (.hook e index .began hook)) = .ok component' w')
    (there' : w'.slot? e index = some slot') (nothing : slot'.deferred = []) :
    respond (depth + 1) (.hook e index hook) w
      = .ok () ((w'.record (.hook e index .ended hook)).setComponent e index
          (some component')) := by
  obtain ⟨rounds, limit⟩ := exists_hookLimit
  rw [respond_present there present, limit, serve_last run there' nothing]

end Rounds

omit [Scalar K] [Behavior K B] in
/-- Whether a component is told of a hook depends on whether it is enabled. -/
theorem dispatch_eq {respond : Impulse K → SceneM K B Unit} {w : World K B} {e : EntityId}
    {hook : Hook K} {index : Nat} {slot : Slot K B} (there : w.slot? e index = some slot) :
    dispatch respond e hook index w
      = if slot.enabled then respond (.hook e index hook) w else .ok () w := by
  unfold dispatch
  refine (bind_of_ok (t := w) rfl).trans ?_
  rw [slotEnabled_of_slot? there]
  cases slot.enabled <;> rfl

/-! ## Switching the first component of a type -/

section Switching

variable {respond : Impulse K → SceneM K B Unit} {w : World K B} {e : EntityId}
  {kind : ComponentKind} {index : Nat} {slot : Slot K B}
  (first : w.first? e kind = some index)
  (there : w.slot? e index = some slot)
include first there

omit [Scalar K] [Behavior K B] in
/-- What is found when the first component of a type is to be switched. -/
theorem found_of_first (enabled : Bool) :
    ((w.slots? e).bind fun slots => (Slots.index? slots kind).bind fun index =>
      if Slots.enabled? slots index = some enabled then none else some index)
      = if slot.enabled = enabled then none else some index := by
  obtain ⟨slots, hslots, hfirst⟩ := Option.bind_eq_some_iff.1 first
  rw [slot?, hslots, Option.bind_some] at there
  rw [hslots, Option.bind_some, hfirst, Option.bind_some, Slots.enabled?, there]
  simp only [Option.map_some, Option.some.injEq]

omit [Scalar K] [Behavior K B] in
/-- Nothing happens when the first component of a type is as it should be. -/
theorem setEnabled_same : setEnabled respond e kind slot.enabled w = .ok () w := by
  unfold setEnabled
  refine (bind_of_ok (t := w) rfl).trans ?_
  rw [found_of_first first there, if_pos rfl]
  rfl

omit [Scalar K] [Behavior K B] in
/-- Otherwise it is switched and told. -/
theorem setEnabled_other {enabled : Bool} (other : slot.enabled ≠ enabled) :
    setEnabled respond e kind enabled w
      = respond (.hook e index (if enabled then .enable else .disable))
          (w.modifySlot e index fun slot => { slot with enabled }) := by
  unfold setEnabled
  refine (bind_of_ok (t := w) rfl).trans ?_
  rw [found_of_first first there, if_neg other]
  rfl

end Switching

end SceneM

/-! ## What a mover does -/

namespace Mover

section Runs

variable {respond : Impulse K → SceneM K B Unit} {e : EntityId} {w w₁ : World K B} {m : Mover K}

/-- Releasing its handle, a mover completes it and does nothing else. -/
theorem run_release : m.release.run (SceneM.performWith respond) w
    = .ok () (w.dropComponent (.mover m)) := by
  obtain ⟨origin, target, duration, elapsed, easing, finished, done⟩ := m
  cases done <;> rfl

/-- Finishing, it does the same and is at the end of its move. -/
theorem run_finish : m.finish.run (SceneM.performWith respond) w
    = .ok m.ended (w.dropComponent (.mover m)) := by
  unfold finish
  change (m.release.bind _).run _ _ = _
  rw [Program.run_bind]
  exact (bind_of_ok run_release).trans rfl

/-- Enabling a mover whose move is not over has no effect. -/
theorem run_enable (going : m.finished = false) :
    ((Component.mover m : Component K B).react e .enable).run (SceneM.performWith respond) w
      = .ok (.mover m) w := by
  change ((m.onEnable.bind _).run _ w) = _
  rw [Program.run_bind]
  unfold onEnable
  rw [going]
  rfl

/-- Disabling a mover whose move is over has no effect. -/
theorem run_disable_over (ended : m.finished = true) :
    ((Component.mover m : Component K B).react e .disable).run (SceneM.performWith respond) w
      = .ok (.mover m) w := by
  change (((m.onDisable e).bind _).run _ w) = _
  rw [Program.run_bind]
  unfold onDisable
  rw [ended]
  rfl

/-- Disabling a mover puts its actor at the target and ends the move. -/
theorem run_disable (going : m.finished = false) :
    ((Component.mover m : Component K B).react e .disable).run (SceneM.performWith respond) w
      = .ok (.mover m.ended)
          ((w.placeInWorld e (.position m.target)).dropComponent (.mover m)) := by
  change (((m.onDisable e).bind _).run _ w) = _
  rw [Program.run_bind]
  have ended : (m.onDisable e).run (SceneM.performWith respond) w
      = .ok m.ended ((w.placeInWorld e (.position m.target)).dropComponent (.mover m)) := by
    unfold onDisable
    rw [going]
    exact (bind_of_ok (t := w.placeInWorld e (.position m.target)) rfl).trans run_finish
  exact (bind_of_ok ended).trans rfl

omit [Behavior K B] in
/-- What a mover does in an update while its move is not over. -/
theorem onUpdate_eq {dt : K} (going : m.finished = false) :
    (m.onUpdate e dt : Program K B (Mover K)) = do
      match ← Program.edit (.worldPosition e) with
      | none => return m
      | some start =>
        let () ← Program.edit (.placeInWorld e (.position (m.waypoint start dt)))
        if m.arrives dt then
          let m ← (m.carried start dt).finish
          let () ← Program.request (.setEnabled e .mover false)
          return m
        else return m.carried start dt := by
  unfold onUpdate
  rw [if_neg (by rw [going]; nofun)]
  rfl

omit [Behavior K B] in
/-- A mover goes on with the handle it has. -/
theorem dropComponent_carried (m : Mover K) (start : Vec3 K) (dt : K) :
    w.dropComponent (.mover (m.carried start dt)) = w.dropComponent (.mover m) := by
  rw [dropComponent_eq, dropComponent_eq]
  rfl

section Update

variable {start : Vec3 K} {dt : K} (going : m.finished = false)
  (found : w.worldPosition e = (some start, w₁))
include going found

omit going in
/-- Asking for the place of the actor. -/
theorem run_located : SceneM.performWith respond (.edit (.worldPosition e)) w
    = .ok (some start) w₁ := by
  change EStateM.Result.ok (w.worldPosition e).1 (w.worldPosition e).2 = _
  rw [found]

/-- A mover takes its actor on. -/
theorem run_update (short : m.arrives dt = false) :
    ((Component.mover m : Component K B).react e (.update dt)).run (SceneM.performWith respond) w
      = .ok (.mover (m.carried start dt))
          (w₁.placeInWorld e (.position (m.waypoint start dt))) := by
  change (((m.onUpdate e dt).bind _).run _ w) = _
  rw [Program.run_bind, onUpdate_eq going, short]
  exact bind_of_ok ((bind_of_ok (run_located found)).trans (bind_of_ok rfl))

/-- A mover that arrives lets go of its handle and disables the first mover of its actor. -/
theorem run_arrival {w' : World K B} (far : m.arrives dt = true)
    (disabled : SceneM.setEnabled respond e .mover false
      ((w₁.placeInWorld e (.position (m.waypoint start dt))).dropComponent (.mover m))
        = .ok () w') :
    ((Component.mover m : Component K B).react e (.update dt)).run (SceneM.performWith respond) w
      = .ok (.mover (m.carried start dt).ended) w' := by
  change (((m.onUpdate e dt).bind _).run _ w) = _
  rw [Program.run_bind, onUpdate_eq going, far]
  have finished : ((m.carried start dt).finish.bind fun m =>
      (Program.request (.setEnabled e .mover false)).bind fun _ => .done m).run
        (SceneM.performWith respond) (w₁.placeInWorld e (.position (m.waypoint start dt)))
      = .ok (m.carried start dt).ended w' := by
    rw [Program.run_bind]
    exact (bind_of_ok run_finish).trans (bind_of_ok (dropComponent_carried m start dt ▸ disabled))
  exact bind_of_ok ((bind_of_ok (run_located found)).trans ((bind_of_ok rfl).trans finished))

end Update

end Runs

end Mover

end SheepScene
