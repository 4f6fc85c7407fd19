import SheepScene.Proofs.Scene.Tending

/-!
# Moves of actors that are switched off

Switching an actor off disables its components for the time being, which ends their moves: in every
scene that comes about from an empty one, a handle that is not complete is held by an enabled mover
whose actor has not been switched off itself (`waiting_moves_are_not_switched_off`). Nobody tells
the components of an actor when one of the actors above it is switched off, so that a script may go
on waiting for an actor that is not active.

An actor is switched off before its components are told, one after the other, and in between they
may do anything. It is therefore shown of every response that it leaves a scene tended but for what
was under way before (`Answers.keeps`), and that a mover that is told of being disabled is not under
way any more (`Answers.disable`).
-/

set_option autoImplicit false

namespace SheepScene

variable {B : Type} [Behavior Float32 B]

/-- A scene is tended but for what is under way, and threads can call functions only that issue
handles for moves. -/
def Minded (u : Unrest) (w : World Float32 B) : Prop :=
  w.Tended u ∧ FitScheduler (moving B) w

/-- The same where no mover is exempt, which is how programs find a scene. -/
def Orderly (u : Unrest) (w : World Float32 B) : Prop :=
  u.exempt = [] ∧ Minded u w

/-- The same but for the first mover of an actor, which has been given a handle and is about to be
enabled. -/
def Poised (u : Unrest) (x : EntityId × Nat) (w : World Float32 B) : Prop :=
  u.exempt = [] ∧ w.Primed u x ∧ FitScheduler (moving B) w

section Orderly

variable {u : Unrest} {w w' : World Float32 B}

omit [Behavior Float32 B] in
/-- A scene stays minded as long as the slots and the scheduler stay the same. -/
theorem Minded.sameSlots (h : Minded u w) (same : World.SameSlots w w')
    (scheduler : w'.scheduler = w.scheduler) : Minded u w' :=
  ⟨h.1.sameSlots same, fun s hs => h.2 s (scheduler ▸ hs)⟩

omit [Behavior Float32 B] in
/-- A note in the journal leaves a scene minded. -/
theorem Minded.record (h : Minded u w) (event : Event Float32 B) : Minded u (w.record event) :=
  h.sameSlots (.of_entities rfl (.refl _)) rfl

/-- A calm edit leaves a scene minded. -/
theorem Minded.apply (h : Minded u w) {x : Edit Float32 B} (calm : x.Calm) :
    Minded u (w.apply x).2 :=
  ⟨h.1.apply calm, fun s hs => h.2 s (scheduler_apply w x ▸ hs)⟩

omit [Behavior Float32 B] in
/-- A scene stays orderly as long as the slots and the scheduler stay the same. -/
theorem Orderly.sameSlots (h : Orderly u w) (same : World.SameSlots w w')
    (scheduler : w'.scheduler = w.scheduler) : Orderly u w' :=
  ⟨h.1, h.2.sameSlots same scheduler⟩

omit [Behavior Float32 B] in
/-- A note in the journal leaves a scene orderly. -/
theorem Orderly.record (h : Orderly u w) (event : Event Float32 B) : Orderly u (w.record event) :=
  ⟨h.1, h.2.record event⟩

/-- A calm edit leaves a scene orderly. -/
theorem Orderly.apply (h : Orderly u w) {x : Edit Float32 B} (calm : x.Calm) :
    Orderly u (w.apply x).2 :=
  ⟨h.1, h.2.apply calm⟩

/-- The handle of a move is given to the first mover of an active actor, or still to be given. -/
theorem Orderly.retarget (h : Orderly u w) {e : EntityId} (on : ¬ w.SwitchedOff e)
    (target : Vec3 Float32) (duration : Float32) (done : Option WaitHandle) :
    if (w.retarget e target duration done).1
      then ∃ index, Poised u (e, index) (w.retarget e target duration done).2
      else Orderly u (w.retarget e target duration done).2 ∧
        ¬ (w.retarget e target duration done).2.SwitchedOff e := by
  have scheduler : (w.retarget e target duration done).2.scheduler = w.scheduler :=
    scheduler_apply w (.retarget e target duration done)
  split
  · rename_i moved
    obtain ⟨index, hprimed⟩ := h.2.1.primed h.1 on moved
    exact ⟨index, h.1, hprimed, fun s hs => h.2.2 s (scheduler ▸ hs)⟩
  · rename_i stays
    rcases w.retarget_cases e target duration done with heq | ⟨index, m, -, -, heq⟩
    · rw [heq]
      exact ⟨h, on⟩
    · exact absurd (congrArg Prod.fst heq) stays

/-- The handle of a move may be given to a mover that is added. -/
theorem Orderly.addMover (h : Orderly u w) {e : EntityId} (on : ¬ w.SwitchedOff e)
    {m : Mover Float32} (unfinished : m.finished = false) :
    Orderly u (w.addComponent e (.mover m)).2 := by
  refine ⟨h.1, h.2.1.addComponent e fun n hn => ?_, fun s hs => h.2.2 s ?_⟩
  · cases hn
    exact ⟨fun hfinished => absurd hfinished (by rw [unfinished]; decide), fun _ => on⟩
  · exact scheduler_apply w (.add e (.mover m)) ▸ hs

end Orderly

/-! ## Programs -/

/-- A way to perform requests that keeps a scene orderly, and with which the first mover of an actor
may be enabled that has been given a handle. -/
structure Enabling (perform : Performer Float32 B) : Prop extends Serves Orderly perform where
  enable : ∀ u x, Ensures (Poised u x) (perform (.setEnabled x.1 .mover true)) fun _ => Orderly u

section Programs

variable {perform : Performer Float32 B} (enabling : Enabling perform)
include enabling

/-- Programs that make only calm requests keep a scene orderly. -/
theorem Enabling.keeps_only {R : Type} {p : Program Float32 B R} (h : p.Only Request.Calm)
    (u : Unrest) : Keeps (Orderly u) (p.run perform) :=
  enabling.toServes.keeps_only (fun _ _ calm hw => hw.apply calm)
    (fun event _ _ hw => hw.record event) h

/-- An actor is active when it is given a move to wait for, and its mover is enabled then. -/
theorem Enabling.keeps_moveActorTo (args : List Value) (u : Unrest) :
    Keeps (Orderly u) ((HostFunctions.moveActorTo args).run perform) := by
  have serves := enabling.toServes
  unfold HostFunctions.moveActorTo
  refine ensures_runBind (enabling.keeps_only (calm_of_plain
    (HostFunctions.plain_namedActor _ _)) u) fun found => ?_
  cases found with
  | none => exact ensures_runPure fun _ hw => hw
  | some e =>
    refine ensures_runBind
      (Q := fun active w => Orderly u w ∧ (active = true → ¬ w.SwitchedOff e))
      (serves.ensures_ask fun w hw => ⟨hw, World.not_switchedOff_of_isActive⟩) fun active => ?_
    cases active with
    | false =>
      refine ensures_runBind (Q := fun _ => Orderly u)
        (serves.ensures_edit fun w hw => hw.1.apply trivial) fun _ => ?_
      exact ensures_runPure fun _ hw => hw
    | true =>
      refine ensures_runBind (Q := fun _ w => Orderly u w ∧ ¬ w.SwitchedOff e)
        (serves.ensures_edit fun w hw => ?_) fun handle => ?_
      · exact ⟨⟨hw.1.1, hw.1.2.1.of_entities rfl, hw.1.2.2⟩, hw.2 rfl⟩
      refine ensures_runBind (Q := fun moved w => if moved then ∃ index, Poised u (e, index) w
          else Orderly u w ∧ ¬ w.SwitchedOff e)
        (serves.ensures_edit fun w hw => hw.1.retarget hw.2 _ _ _) fun moved => ?_
      cases moved with
      | true =>
        refine ensures_runBind (Q := fun _ => Orderly u) (ensures_runRequest ?_) fun _ =>
          ensures_runPure fun _ hw => hw
        rintro w ⟨index, hpoised⟩ a w' hrun
        exact enabling.enable u (e, index) w hpoised a w' hrun
      | false =>
        refine ensures_runBind (Q := fun _ => Orderly u)
          (serves.ensures_edit fun w hw => ?_) fun _ => ensures_runPure fun _ hw => hw
        obtain ⟨hw, on⟩ := hw
        exact hw.addMover on rfl

/-- Programs that issue handles for moves only keep a scene orderly. -/
theorem Enabling.keeps_moving {R : Type} {p : Program Float32 B R} (h : moving B R p) (u : Unrest) :
    Keeps (Orderly u) (p.run perform) :=
  enabling.toServes.keeps_withMoves (fun _ _ calm hw => hw.apply calm)
    (fun event _ hw => hw.record event) (fun args => enabling.keeps_moveActorTo args u) h

end Programs

/-! ## Movers that execute -/

/-- A mover that executes may go back to its place: if it holds a handle, it is enabled there and
knows when its actor has been switched off. -/
structure Ready (u : Unrest) (x : EntityId × Nat) (m : Mover Float32) (w : World Float32 B) :
    Prop where
  released : m.finished = true → m.done = none
  running : ∀ slot, w.slot? x.1 x.2 = some slot → m.done.isSome → x ∉ u.exempt →
    slot.enabled = true ∧ (w.SwitchedOff x.1 → x ∈ u.due)

/-- A mover executes that may go back to its place. -/
def Carrying (u : Unrest) (x : EntityId × Nat) (m : Mover Float32) (w : World Float32 B) : Prop :=
  Minded (u.except x) w ∧ Ready u x m w

section Movers

variable {u : Unrest} {x : EntityId × Nat} {m m' : Mover Float32} {w w' : World Float32 B}

omit [Behavior Float32 B] in
/-- A mover that holds nothing may go back wherever it came from. -/
theorem ready_of_free (free : m.done = none) : Ready u x m w := by
  refine ⟨fun _ => free, fun _ _ hdone => ?_⟩
  rw [free] at hdone
  cases hdone

omit [Behavior Float32 B] in
/-- A mover may go back to its place as long as the slots are the same. -/
theorem Ready.sameSlots (h : Ready u x m w) (same : World.SameSlots w w') : Ready u x m w' := by
  refine ⟨h.released, fun slot hslot hdone hx => ?_⟩
  rw [World.slot?, same.slots] at hslot
  obtain ⟨henabled, hdue⟩ := h.running slot hslot hdone hx
  exact ⟨henabled, fun hoff => hdue (same.on x.1 hoff)⟩

omit [Behavior Float32 B] in
/-- The mover may move on, with the handle it has. -/
theorem Ready.become (h : Ready u x m w) (finished : m'.finished = m.finished)
    (done : m'.done = m.done) : Ready u x m' w := by
  refine ⟨fun hfinished => ?_, fun slot hslot hdone => h.running slot hslot (done ▸ hdone)⟩
  rw [done]
  exact h.released (finished ▸ hfinished)

omit [Behavior Float32 B] in
/-- A mover may go back to its place also when hooks have been put off for it. -/
theorem Ready.putOff (h : Ready u x m w) (f : List (Hook Float32) → List (Hook Float32)) :
    Ready u x m (w.modifySlot x.1 x.2 fun slot => { slot with deferred := f slot.deferred }) := by
  refine ⟨h.released, fun slot hslot hdone hx => ?_⟩
  rw [World.slot?_modifySlot, if_pos rfl] at hslot
  obtain ⟨old, hold, rfl⟩ := Option.map_eq_some_iff.1 hslot
  obtain ⟨henabled, hdue⟩ := h.running old hold hdone hx
  exact ⟨henabled, fun hoff => hdue (World.switchedOff_modifySlots.1 hoff)⟩

/-- A mover that executes may still go back after an edit that leaves slots alone. -/
theorem Carrying.apply (h : Carrying u x m w) {edit : Edit Float32 B} (leaves : edit.LeavesSlots) :
    Carrying u x m (w.apply edit).2 :=
  ⟨h.1.sameSlots (.apply w leaves) (scheduler_apply w edit), h.2.sameSlots (.apply w leaves)⟩

variable {perform : Performer Float32 B} (serves : Serves Orderly perform)
include serves

/-- Releasing what a mover holds keeps a scene minded. -/
theorem minded_release (u : Unrest) (m : Mover Float32) :
    Keeps (Minded u) (m.release.run perform) := by
  unfold Mover.release
  cases m.done with
  | some handle => exact serves.ensures_edit fun w hw => hw.apply trivial
  | none => exact ensures_runPure fun w hw => hw

/-- After the release the mover may go back without its handle. -/
theorem ensures_free (m : Mover Float32) (free : m'.done = none) :
    Ensures (Minded (u.except x)) ((m.release >>= fun _ => pure m').run perform) fun m' w =>
      Carrying u x m' w :=
  ensures_runBind (minded_release serves _ m) fun _ => ensures_runPure fun _ hw =>
    ⟨hw, ready_of_free free⟩

variable (disabling : ∀ u e, Keeps (Minded u) (perform (.setEnabled e .mover false)))
include disabling

/-- A hook leaves a mover that executes ready to go back, and one that is told of being disabled
becomes so. -/
theorem carrying_react (m : Mover Float32) (hook : Hook Float32) :
    Ensures (fun w => Minded (u.except x) w ∧ (m.finished = true → m.done = none) ∧
        (hook = .disable ∨ Ready u x m w))
      ((m.react x.1 hook).run perform) (Carrying u x) := by
  have staying : ∀ (hook' : Hook Float32), hook' ≠ .disable → ∀ w : World Float32 B,
      (Minded (u.except x) w ∧ (m.finished = true → m.done = none) ∧
        (hook' = .disable ∨ Ready u x m w)) → Carrying u x m w :=
    fun hook' hne w hw => ⟨hw.1, hw.2.2.resolve_left hne⟩
  cases hook with
  | enable =>
    change Ensures _ (m.onEnable.run perform) _
    unfold Mover.onEnable
    split
    · exact (ensures_free serves m rfl).imp (fun _ hw => hw.1) fun _ _ hw => hw
    · exact ensures_runPure (staying .enable nofun)
  | disable =>
    change Ensures _ ((m.onDisable x.1).run perform) _
    unfold Mover.onDisable
    split
    · rename_i hfinished
      exact ensures_runPure fun w hw => ⟨hw.1, ready_of_free (hw.2.1 hfinished)⟩
    · refine ensures_runBind (Q := fun _ => Minded (u.except x))
        (serves.ensures_edit fun w hw => hw.1.apply trivial) fun _ => ?_
      exact ensures_free serves m rfl
  | update dt =>
    change Ensures _ ((m.onUpdate x.1 dt).run perform) _
    refine Ensures.imp (P := Carrying u x m) ?_ (staying _ nofun) fun _ _ hw => hw
    unfold Mover.onUpdate
    split
    · exact ensures_runPure fun _ hw => hw
    · refine ensures_runBind (Q := fun _ => Carrying u x m)
        (serves.ensures_edit fun w hw => hw.apply trivial) fun start => ?_
      cases start with
      | none => exact ensures_runPure fun _ hw => hw
      | some start =>
        refine ensures_runBind (Q := fun _ => Carrying u x m)
          (serves.ensures_edit fun w hw => hw.apply trivial) fun _ => ?_
        split
        · -- the mover lets go of its handle before it is disabled
          refine ensures_runBind (Q := fun m' w => m'.done = none ∧ Minded (u.except x) w)
            ?_ fun m' => ?_
          · refine ensures_runBind (Q := fun _ => Minded (u.except x))
              ((minded_release serves _ _).imp (fun _ hw => hw.1) fun _ _ hw => hw) fun _ => ?_
            exact ensures_runPure fun _ hw => ⟨rfl, hw⟩
          · have disabled : Keeps (fun w => m'.done = none ∧ Minded (u.except x) w)
                (perform (.setEnabled x.1 .mover false)) :=
              fun w hw a w' hrun => ⟨hw.1, disabling _ _ w hw.2 a w' hrun⟩
            refine ensures_runBind (ensures_runRequest disabled) fun _ => ?_
            exact ensures_runPure fun _ hw => ⟨hw.2, ready_of_free hw.1⟩
        · exact ensures_runPure fun w hw => ⟨hw.1, hw.2.become rfl rfl⟩
  | lateUpdate dt => exact ensures_runPure (staying (.lateUpdate dt) nofun)

/-- A mover that serves a hook, and those that were put off in the meantime, goes back to its place
as it should be. -/
theorem ensures_serveMover (rounds : Nat) (m : Mover Float32) (hook : Hook Float32) :
    Ensures (fun w => Minded (u.except x) w ∧ (m.finished = true → m.done = none) ∧
        (hook = .disable ∨ Ready u x m w))
      (SceneM.serve perform rounds x.1 x.2 (.mover m) hook) fun _ => Minded u := by
  -- by induction on the rounds that are left: a mover that has served one hook is ready for any
  induction rounds generalizing m hook with
  | zero => exact ensures_throw _
  | succ rounds ih =>
    have same : ∀ (w : World Float32 B) event, World.SameSlots w (w.record event) :=
      fun w event => .of_entities rfl (.refl _)
    refine ensures_bind (keeps_modify fun w hw => ?_) fun _ => ?_
    · exact ⟨hw.1.record _, hw.2.1, hw.2.2.imp_right fun h => h.sameSlots (same w _)⟩
    refine ensures_bind (ensures_runBind (carrying_react serves disabling m hook) fun m' =>
      ensures_runPure (T := fun (c : Component Float32 B) w => ∃ m', c = .mover m' ∧
        Carrying u x m' w)
        fun w hw => ⟨m', rfl, hw⟩) fun c => ?_
    refine ensures_bind (Q := fun _ w => ∃ m', c = .mover m' ∧ Carrying u x m' w)
      (ensures_modify ?_) fun _ => ?_
    · rintro w ⟨m', rfl, hw⟩
      exact ⟨m', rfl, hw.1.record _, hw.2.sameSlots (same w _)⟩
    refine ensures_getBind ?_
    rintro w ⟨m', rfl, hminded, hready⟩
    split
    · rename_i hslot
      refine ensures_modify fun _ hs => hs ▸
        Minded.sameSlots ⟨?_, hminded.2⟩ (.dropComponent w _) ?_
      · refine hminded.1.change x (fun y hy => Unrest.except_within hy) rfl fun slot hs => ?_
        cases hslot.symm.trans hs
      · rw [World.dropComponent_eq]
    · rename_i slot hslot
      split
      · refine ensures_modify fun _ hs => hs ▸ ⟨?_, hminded.2⟩
        exact hminded.1.putMover hready.released hready.running
      · rename_i next deferred _
        refine ensures_bind (Q := fun _ w => Minded (u.except x) w ∧
          (m'.finished = true → m'.done = none) ∧ (next = .disable ∨ Ready u x m' w))
          (ensures_modify fun _ hs => hs ▸ ⟨⟨?_, hminded.2⟩, hready.released, .inr ?_⟩)
          fun _ => ih m' next
        · exact hminded.1.putOff fun _ => deferred
        · exact hready.putOff fun _ => deferred

end Movers

/-! ## Other components that execute -/

section Others

variable {u : Unrest} {x : EntityId × Nat} {perform : Performer Float32 B}
  (enabling : Enabling perform) (behaved : MovingBehavior B)
include enabling behaved

/-- A component that is no mover stays none and keeps a scene orderly. -/
theorem orderly_react {c : Component Float32 B} (other : ∀ m, c ≠ .mover m) (e : EntityId)
    (hook : Hook Float32) : Ensures (Orderly u) ((c.react e hook).run perform) fun c' w =>
      (∀ m, c' ≠ .mover m) ∧ Orderly u w := by
  cases c with
  | mover m => exact absurd rfl (other m)
  | listener =>
    exact ensures_runBind (enabling.keeps_only (calm_of_plain (plain_listenerReact e hook)) u)
      fun _ => ensures_runPure fun _ hw => ⟨nofun, hw⟩
  | custom b =>
    exact ensures_runBind (enabling.keeps_moving (behaved.react b e hook) u) fun _ =>
      ensures_runPure fun _ hw => ⟨nofun, hw⟩

/-- A component that is no mover keeps a scene orderly also while it serves the hooks put off for
it. -/
theorem ensures_serveOther (rounds : Nat) {c : Component Float32 B} (other : ∀ m, c ≠ .mover m)
    (hook : Hook Float32) : Ensures (Orderly (u.without x))
      (SceneM.serve perform rounds x.1 x.2 c hook) fun _ => Orderly u := by
  induction rounds generalizing c hook with
  | zero => exact ensures_throw _
  | succ rounds ih =>
    refine ensures_bind (keeps_modify fun _ hw => hw.record _) fun _ => ?_
    refine ensures_bind (orderly_react enabling behaved other x.1 hook) fun c' => ?_
    refine ensures_bind (Q := fun _ w => (∀ m, c' ≠ .mover m) ∧ Orderly (u.without x) w)
      (ensures_modify fun _ hw => ⟨hw.1, hw.2.record _⟩) fun _ => ?_
    refine ensures_getBind fun w hw => ?_
    obtain ⟨other', hw⟩ := hw
    split
    · exact ensures_modify fun _ hs => hs ▸ Orderly.sameSlots ⟨hw.1, hw.2.1.forget, hw.2.2⟩
        (.dropComponent w _) (by rw [World.dropComponent_eq])
    · split
      · exact ensures_modify fun _ hs => hs ▸ ⟨hw.1, hw.2.1.putOther other', hw.2.2⟩
      · rename_i next deferred _
        refine ensures_bind (Q := fun _ => Orderly (u.without x)) (ensures_modify fun _ hs => ?_)
          fun _ => ih other' next
        exact hs ▸ ⟨hw.1, hw.2.1.putOff fun _ => deferred, hw.2.2⟩

end Others

/-! ## Responses -/

/-- Whatever is at a place may be told of being disabled: a mover that is there, unless it was
exempt before, or any component where no mover executes. -/
def Tellable (u : Unrest) (x : EntityId × Nat) (w : World Float32 B) : Prop :=
  ∀ slot, w.slot? x.1 x.2 = some slot →
    (slot.kind = .mover → slot.component = none → x ∈ u.exempt) ∧
      (slot.kind = .mover ∨ u.exempt = [])

/-- What is shown of responses: a scene remains orderly, and a mover that is told of being disabled
is exempt no more. -/
structure Answers (respond : Impulse Float32 → SceneM Float32 B Unit) : Prop where
  keeps : ∀ impulse u, Keeps (Orderly u) (respond impulse)
  disable : ∀ u x, Ensures (fun w => Minded (u.except x) w ∧ Tellable u x w)
    (respond (.hook x.1 x.2 .disable)) fun _ => Minded u

/-- What requests and frames do by themselves leaves a scene orderly. -/
theorem steady_orderly : Steady (moving B) Enabling (Orderly (B := B)) where
  program enabling _ _ fit u := enabling.keeps_moving fit u
  record event _ hw := hw.record event
  tick dt hw := hw.apply (x := .tick dt) trivial
  dequeue hw := hw.sameSlots (.of_entities rfl (.refl _)) rfl
  place e placement hw := hw.apply (x := .place e placement) trivial
  destroy e hw := hw.apply (x := .destroy e) trivial
  reclaim e hw :=
    ⟨hw.1, hw.2.1.reclaim e, fun s hs => hw.2.2 s (scheduler_reclaim _ e ▸ hs)⟩
  table hw hscheduler := hw.2.2 _ hscheduler
  lend hw := ⟨hw.1, hw.2.1.of_entities rfl, fun s hs => nomatch hs⟩
  restore fit hw := by
    refine ⟨hw.1, hw.2.1.of_entities rfl, fun s hs => ?_⟩
    cases hs
    exact fit

section Answers

variable {respond : Impulse Float32 → SceneM Float32 B Unit} (answers : Answers respond)

omit [Behavior Float32 B] in
/-- Where the first component of a kind is found to be switched, it is in a slot of that kind. -/
theorem slot?_of_found {w : World Float32 B} {e : EntityId} {kind : ComponentKind} {enabled : Bool}
    {index : Nat} (h : ((w.slots? e).bind fun slots => (Slots.index? slots kind).bind fun index =>
      if Slots.enabled? slots index = some enabled then none else some index) = some index) :
    ((w.slots? e).bind fun slots => Slots.index? slots kind) = some index ∧
      ∀ slot, w.slot? e index = some slot → slot.kind = kind := by
  obtain ⟨slots, hslots, hfound⟩ := Option.bind_eq_some_iff.1 h
  obtain ⟨i, hi, hfound⟩ := Option.bind_eq_some_iff.1 hfound
  have heq : i = index := by
    split at hfound
    · cases hfound
    · exact Option.some.inj hfound
  subst heq
  refine ⟨by rw [hslots, Option.bind_some, hi], fun slot hslot => ?_⟩
  rw [World.slot?, hslots, Option.bind_some] at hslot
  obtain ⟨hlt, hkind, -⟩ := Array.findIdx?_eq_some_iff_getElem.1 hi
  rw [Array.getElem?_eq_getElem hlt] at hslot
  cases hslot
  exact eq_of_beq hkind

omit [Behavior Float32 B] in
include answers in
/-- Disabling the first component of a kind, which is done while no mover executes or to a mover. -/
theorem Answers.setDisabled (u : Unrest) (e : EntityId) {kind : ComponentKind}
    (h : kind = .mover ∨ u.exempt = []) :
    Keeps (Minded u) (SceneM.setEnabled respond e kind false) := by
  unfold SceneM.setEnabled
  refine ensures_getBind fun w hw => ?_
  dsimp only
  split
  · exact ensures_at hw (keeps_pure _)
  · rename_i index hfound
    obtain ⟨-, hkind⟩ := slot?_of_found hfound
    -- the component is disabled before it is told, so that it is exempt in between
    refine ensures_bind (ensures_modify fun _ hs => hs ▸ ⟨⟨hw.1.disable, hw.2⟩, ?_⟩) fun _ =>
      answers.disable u (e, index)
    intro slot hslot
    rw [World.slot?_modifySlot, if_pos rfl] at hslot
    obtain ⟨old, hold, rfl⟩ := Option.map_eq_some_iff.1 hslot
    refine ⟨fun hk hempty => (hw.1.slot (e, index) old hold).present hk hempty, ?_⟩
    exact h.imp_left fun hk => (hkind old hold).trans hk

omit [Behavior Float32 B] in
include answers in
/-- A component of an actor that was switched off is told, unless it is disabled already. -/
theorem Answers.dispatchOne (u : Unrest) (x : EntityId × Nat) :
    Ensures (Orderly (u.after [x])) (SceneM.dispatch respond x.1 .disable x.2)
      fun _ => Orderly u := by
  refine ensures_getBind fun w hw => ?_
  have elsewhere : ∀ y, y ≠ x → y ∈ (u.after [x]).due → y ∈ u.due :=
    fun y hy hdue => (List.mem_cons.1 hdue).resolve_left hy
  split
  · have told : Minded (u.except x) w ∧ Tellable u x w := by
      refine ⟨⟨hw.2.1.change x (fun y hy => ⟨List.mem_cons_of_mem _, elsewhere y hy⟩) rfl
        fun slot hslot => ?_, hw.2.2⟩, fun slot hslot => ?_⟩
      · have old := hw.2.1.slot x slot hslot
        exact ⟨old.kind, old.released, fun _ _ => List.mem_cons_self,
          fun _ _ _ hx => absurd List.mem_cons_self hx⟩
      · exact ⟨(hw.2.1.slot x slot hslot).present, .inr hw.1⟩
    exact (answers.disable u x).imp (fun _ hs => hs ▸ told) fun _ _ hs => ⟨hw.1, hs⟩
  · rename_i hdisabled
    refine ensures_pure fun _ hs => hs ▸ ⟨hw.1, ?_, hw.2.2⟩
    refine hw.2.1.change x (fun y hy => ⟨id, elsewhere y hy⟩) rfl fun slot hslot => ?_
    have old := hw.2.1.slot x slot hslot
    refine ⟨old.kind, old.released, old.present, fun m hm hdone hx => ?_⟩
    rw [World.slotEnabled_of_slot? hslot] at hdisabled
    exact absurd (old.running m hm hdone hx).1 hdisabled

omit [Behavior Float32 B] in
include answers in
/-- The components are told one after the other. -/
theorem Answers.dispatchAll (u : Unrest) (e : EntityId) (indices : List Nat) :
    Ensures (Orderly (u.after (indices.map (e, ·))))
      (indices.forM (SceneM.dispatch respond e .disable)) fun _ => Orderly u := by
  induction indices with
  | nil => exact ensures_pure fun _ hw => hw
  | cons index rest ih =>
    exact ensures_bind (answers.dispatchOne (u.after (rest.map (e, ·))) (e, index)) fun _ => ih

omit [Behavior Float32 B] in
include answers in
/-- Switching an actor keeps a scene orderly. -/
theorem Answers.setActive (e : EntityId) (active : Bool) (u : Unrest) :
    Keeps (Orderly u) (SceneM.setActive respond e active) := by
  unfold SceneM.setActive
  refine ensures_getBind fun w hw => ?_
  split
  · exact ensures_at hw (keeps_pure _)
  · rename_i state hstate
    have emits : ∀ event u, Keeps (Orderly u) (SceneM.emit respond event) := fun event u =>
      Steady.emit (fun _ hw => hw.record _) (answers.keeps (.event event) u)
    cases active with
    | true =>
      have hstate : state ≠ .inactive := by
        obtain ⟨a, -, ha⟩ := Option.bind_eq_some_iff.1 hstate
        rw [(SceneM.switched_eq_some ha).1]
        exact nofun
      refine ensures_bind (Q := fun _ => Orderly u) (ensures_modify fun _ hs => ?_) fun _ => ?_
      · exact hs ▸ hw.sameSlots (.modifyActor w e fun _ hoff => absurd hoff hstate) rfl
      refine keeps_bind (emits _ u) fun _ => keeps_bind (Steady.places e u) fun indices => ?_
      exact keeps_forM fun index _ => Steady.dispatch answers.keeps e _ index u
    | false =>
      -- from here on all components are due, and each one is struck off when it is told
      refine ensures_bind (Q := fun _ =>
        Orderly (u.after ((List.range (w.componentCount e)).map (e, ·))))
        (ensures_modify fun _ hs => ?_) fun _ => ?_
      · rw [hs]
        exact ⟨hw.1, hw.2.1.switch e _, hw.2.2⟩
      refine ensures_bind (emits _ _) fun _ => ?_
      refine ensures_bind (Q := fun indices => Orderly (u.after (indices.map (e, ·)))) ?_
        fun indices => answers.dispatchAll u e indices
      refine ensures_getBind fun v hv => ensures_pure fun _ hs => ?_
      rw [hs]
      exact ⟨hv.1, hv.2.1.recount, hv.2.2⟩

omit [Behavior Float32 B] in
include answers in
/-- A good answer to impulses keeps a scene orderly. -/
theorem Answers.responds : Responds Orderly respond where
  event event := answers.keeps (.event event)
  visit e hook _ indices u := Steady.dispatchWhileActive answers.keeps e hook indices u
  setActive := answers.setActive
  setEnabled e kind enabled u := by
    cases enabled with
    | false =>
      intro w hw a w' hrun
      exact ⟨hw.1, answers.setDisabled u e (.inr hw.1) w hw.2 a w' hrun⟩
    | true =>
      unfold SceneM.setEnabled
      refine keeps_getBind fun w hw => ?_
      dsimp only
      split
      · exact keeps_pure _
      · refine keeps_bind (keeps_modify fun _ hs => ⟨hs.1, hs.2.1.enable, hs.2.2⟩) fun _ => ?_
        exact answers.keeps _ u

omit [Behavior Float32 B] in
include answers in
/-- Where the first mover of an actor is to be enabled, either it is so already, or it is enabled
now and told. -/
theorem Answers.enable (u : Unrest) (x : EntityId × Nat) :
    Ensures (Poised u x) (SceneM.setEnabled respond x.1 .mover true) fun _ => Orderly u := by
  unfold SceneM.setEnabled
  refine ensures_getBind fun w hw => ?_
  obtain ⟨hcalm, hprimed, hfit⟩ := hw
  dsimp only
  split
  · rename_i hnone
    refine ensures_pure fun _ hs => hs ▸ ⟨hcalm, hprimed.settle fun slot hslot => ?_, hfit⟩
    obtain ⟨slots, hslots, hfirst⟩ := Option.bind_eq_some_iff.1 hprimed.first
    rw [hslots, Option.bind_some, hfirst, Option.bind_some] at hnone
    rw [World.slot?, hslots, Option.bind_some] at hslot
    rw [Slots.enabled?, hslot, Option.map_some] at hnone
    by_contra hdisabled
    rw [if_neg fun heq => hdisabled (Option.some.inj heq)] at hnone
    cases hnone
  · rename_i index hfound
    obtain ⟨hfirst, -⟩ := slot?_of_found hfound
    cases hfirst.symm.trans hprimed.first
    refine ensures_bind (Q := fun _ => Orderly u) (ensures_modify fun _ hs => ?_) fun _ =>
      answers.keeps _ u
    exact hs ▸ ⟨hcalm, hprimed.enable, hfit⟩

include answers in
/-- Performing a request within an answer keeps a scene orderly and may enable a mover. -/
theorem Answers.enabling_performWithin : Enabling (SceneM.performWithin respond) where
  toServes := steady_orderly.serves_performWithin answers.responds
  enable := answers.enable

include answers in
/-- Performing a request with the answer keeps a scene orderly and may enable a mover. -/
theorem Answers.enabling_performWith : Enabling (SceneM.performWith respond) where
  toServes := steady_orderly.serves_performWith answers.responds answers.enabling_performWithin
  enable := answers.enable

end Answers

section Respond

variable {u : Unrest} {x : EntityId × Nat} {w : World Float32 B} {slot : Slot Float32 B}
  {respond : Impulse Float32 → SceneM Float32 B Unit}

omit [Behavior Float32 B] in
/-- A hook may be put off anywhere. -/
theorem Minded.putOff (h : Minded u w) (x : EntityId × Nat) (hook : Hook Float32) :
    Minded u ((w.modifySlot x.1 x.2 fun slot =>
      { slot with deferred := slot.deferred ++ [hook] }).record (.hook x.1 x.2 .deferred hook)) :=
  Minded.record ⟨h.1.putOff (· ++ [hook]), h.2⟩ _

/-- A mover leaves its slot to serve a hook. -/
theorem ensures_takeMover (answers : Answers respond) {m : Mover Float32} {hook : Hook Float32}
    (hw : Minded (u.except x) w) (hslot : w.slot? x.1 x.2 = some slot)
    (hm : slot.component = some (.mover m))
    (ready : hook = .disable ∨ (m.done.isSome → x ∉ u.exempt →
      slot.enabled = true ∧ (w.SwitchedOff x.1 → x ∈ u.due))) :
    Ensures (· = w) (do
      modify fun w => w.modifySlot x.1 x.2 fun slot => { slot with component := none }
      SceneM.serve (SceneM.performWith respond) SceneM.hookLimit x.1 x.2 (.mover m) hook)
      fun _ => Minded u := by
  have released := (hw.1.slot x slot hslot).released m hm
  refine ensures_bind (Q := fun _ w => Minded (u.except x) w ∧
    (m.finished = true → m.done = none) ∧ (hook = .disable ∨ Ready u x m w))
    (ensures_modify ?_) fun _ => ensures_serveMover answers.enabling_performWith.toServes
      (fun u e => answers.setDisabled u e (.inl rfl)) _ m hook
  rintro _ rfl
  refine ⟨⟨hw.1.takeMover, hw.2⟩, released, ready.imp_right fun running => ⟨released, ?_⟩⟩
  intro s hs hdone hx
  rw [World.slot?_modifySlot, if_pos rfl, hslot] at hs
  cases hs
  obtain ⟨henabled, hdue⟩ := running hdone hx
  exact ⟨henabled, fun hoff => hdue (World.switchedOff_modifySlots.1 hoff)⟩

/-- Another component leaves its slot to serve a hook. -/
theorem ensures_takeOther (answers : Answers respond) (behaved : MovingBehavior B)
    {c : Component Float32 B} (hook : Hook Float32) (hw : Orderly u w)
    (hslot : w.slot? x.1 x.2 = some slot) (hc : slot.component = some c)
    (other : ∀ m, c ≠ .mover m) :
    Ensures (· = w) (do
      modify fun w => w.modifySlot x.1 x.2 fun slot => { slot with component := none }
      SceneM.serve (SceneM.performWith respond) SceneM.hookLimit x.1 x.2 c hook)
      fun _ => Orderly u := by
  refine ensures_bind (Q := fun _ => Orderly (u.without x)) (ensures_modify ?_) fun _ =>
    ensures_serveOther answers.enabling_performWith behaved _ other hook
  rintro _ rfl
  exact ⟨hw.1, hw.2.1.takeOther hslot hc other, hw.2.2⟩

/-- A component that is told something leaves a scene orderly. -/
theorem keeps_hook {depth : Nat} (answers : Answers (SceneM.respond (B := B) depth))
    (behaved : MovingBehavior B) (x : EntityId × Nat) (hook : Hook Float32) (u : Unrest) :
    Keeps (Orderly u) (SceneM.respond (B := B) (depth + 1) (.hook x.1 x.2 hook)) := by
  unfold SceneM.respond
  refine ensures_getBind fun w hw => ?_
  split
  · exact ensures_at hw (keeps_pure _)
  · rename_i slot hslot
    split
    · exact ensures_modify fun _ hs => hs ▸ ⟨hw.1, hw.2.putOff x hook⟩
    · rename_i c hc
      obtain ⟨m, rfl⟩ | other := exists_or_forall_not fun m => c = .mover m
      · have old := hw.2.1.slot x slot hslot
        have exempted : Minded (u.except x) w :=
          ⟨hw.2.1.change x (fun y _ => u.within_except y x) rfl fun s hs =>
            (hw.2.1.slot x s hs).mono (u.within_except x x) id, hw.2.2⟩
        exact (ensures_takeMover answers exempted hslot hc (.inr (old.running m hc))).imp
          (fun _ hs => hs) fun _ _ hs => ⟨hw.1, hs⟩
      · exact ensures_takeOther answers behaved hook hw hslot hc other

/-- A mover that is told of being disabled is exempt no more. -/
theorem ensures_disable {depth : Nat} (answers : Answers (SceneM.respond (B := B) depth))
    (behaved : MovingBehavior B) (u : Unrest) (x : EntityId × Nat) :
    Ensures (fun w => Minded (u.except x) w ∧ Tellable u x w)
      (SceneM.respond (B := B) (depth + 1) (.hook x.1 x.2 .disable)) fun _ => Minded u := by
  unfold SceneM.respond
  refine ensures_getBind fun w hw => ?_
  obtain ⟨hw, tellable⟩ := hw
  have settled : (∀ s, w.slot? x.1 x.2 = some s → s.Tended u x (w.SwitchedOff x.1)) →
      Minded u w :=
    fun here => ⟨hw.1.change x (fun y hy => Unrest.except_within hy) rfl here, hw.2⟩
  split
  · rename_i hnone
    refine ensures_pure fun _ hs => hs ▸ settled fun s hslot => ?_
    cases hnone.symm.trans hslot
  · rename_i slot hslot
    obtain ⟨absent, calm⟩ := tellable slot hslot
    have old := hw.1.slot x slot hslot
    split
    · rename_i hempty
      refine ensures_modify fun _ hs => hs ▸ (settled fun s hs => ?_).putOff x .disable
      cases hslot.symm.trans hs
      exact Slot.tended_of_empty hempty fun hk => absent hk hempty
    · rename_i c hc
      obtain ⟨m, rfl⟩ | other := exists_or_forall_not fun m => c = .mover m
      · exact ensures_takeMover answers hw hslot hc (.inl rfl)
      · have hkind : slot.kind ≠ .mover := fun hkind =>
          absurd (old.kind c hc hkind) (not_exists.2 other)
        have orderly : Orderly u w := by
          refine ⟨calm.resolve_left hkind, settled fun s hs => ?_⟩
          cases hslot.symm.trans hs
          exact Slot.tended_of_other hkind fun m hm => other m (Option.some.inj (hc ▸ hm))
        exact (ensures_takeOther answers behaved .disable orderly hslot hc other).imp
          (fun _ hs => hs) fun _ _ hs => hs.2

/-- Whatever an impulse sets off, to any depth, leaves a scene orderly. -/
theorem answers_respond (behaved : MovingBehavior B) (depth : Nat) :
    Answers (SceneM.respond (K := Float32) (B := B) depth) := by
  induction depth with
  | zero => exact ⟨fun _ _ => ensures_throw _, fun _ _ => ensures_throw _⟩
  | succ depth ih =>
    refine ⟨fun impulse u => ?_, ensures_disable ih behaved⟩
    cases impulse with
    | event event =>
      exact steady_orderly.program ih.enabling_performWith (behaved.observe event) u
    | hook e index hook => exact keeps_hook ih behaved (e, index) hook u

/-- Scenes stay orderly whatever happens to them. -/
theorem lasting_orderly (behaved : MovingBehavior B) :
    Lasting (moving B) Enabling (Orderly (B := B)) where
  steady := steady_orderly
  responds := (answers_respond behaved _).responds
  within := (answers_respond behaved _).enabling_performWithin
  perform := (answers_respond behaved _).enabling_performWith

end Respond

/-! ## Moves that are waited for -/

/-- Some actor above an actor is not active. -/
def World.Shadowed (w : World Float32 B) (e : EntityId) : Prop :=
  ∃ above ∈ w.ancestors e, ∃ a, w.actor? above = some a ∧ a.state ≠ .active

/-- What is known of moves when actors and components are switched off. -/
structure DeactivationEnds (w : World Float32 B) : Prop where
  /-- A mover that is disabled, or whose actor has been switched off, holds nothing. -/
  ended : ∀ x m, w.MoverAt x m → w.slotEnabled x.1 x.2 = false ∨ w.SwitchedOff x.1 →
    m.done = none
  /-- A handle that is not complete is held by a mover that is enabled, on an actor that is active,
  destroyed, or active by itself below one that is not. -/
  waiting : ∀ serial < w.waits.issued.size, w.waits.isComplete (.issued serial) = false →
    ∃ x m, w.MoverAt x m ∧ m.done = some (.issued serial) ∧ w.slotEnabled x.1 x.2 = true ∧
      (w.isActive x.1 = true ∨ ∃ a, w.actor? x.1 = some a ∧
        (a.state = .destroyed ∨ a.state = .active ∧ w.Shadowed x.1))

omit [Behavior Float32 B] in
/-- An actor that is active by itself is active unless one above it is not. -/
theorem World.isActive_or_shadowed {w : World Float32 B} {e : EntityId} {a : Actor Float32}
    (ha : w.actor? e = some a) (on : a.state = .active) : w.isActive e = true ∨ w.Shadowed e := by
  by_cases clear : ∀ x ∈ w.ancestors e, ∀ b, w.actor? x = some b → b.state = .active
  · refine .inl (isActive_iff.2 ⟨Option.isSome_iff_exists.2 ⟨a, ha⟩, fun x hx b hb => ?_⟩)
    rw [lineage_eq_cons] at hx
    rcases List.mem_cons.1 hx with rfl | hx
    · cases ha.symm.trans hb
      exact on
    · exact clear x hx b hb
  · push Not at clear
    exact .inr clear

/-- In every scene that comes about from an empty one, where handles are issued for moves only,
switching an actor or its mover off ends the move. -/
theorem waiting_moves_are_not_switched_off (behaved : MovingBehavior B) {w : World Float32 B}
    (h : Reachable (moving B) w) : DeactivationEnds w := by
  have accounted : w.Accounted 0 [] := (h.keeps (kept_booked behaved 0)
    fun w entities _ waits scheduler => booked_empty entities waits scheduler).1
  have empty : ∀ w : World Float32 B, w.entities = #[] → w.actors = [] → w.waits = .none →
      w.scheduler = none → Orderly .none w := by
    refine fun w entities _ _ scheduler => ⟨rfl, .of_empty entities, fun s hs => ?_⟩
    cases scheduler.symm.trans hs
  have tended : w.Tended .none := ((lasting_orderly behaved).reachable empty h).2.1
  have running : ∀ x m, w.MoverAt x m → m.done.isSome →
      w.slotEnabled x.1 x.2 = true ∧ ¬ w.SwitchedOff x.1 := by
    rintro x m ⟨-, slot, hslot, hm⟩ hdone
    obtain ⟨henabled, hdue⟩ := (tended.slot x slot hslot).running m hm hdone List.not_mem_nil
    exact ⟨(World.slotEnabled_of_slot? hslot).trans henabled, fun hoff =>
      absurd (hdue hoff) List.not_mem_nil⟩
  refine ⟨fun x m hm hoff => ?_, fun serial hlt hopen => ?_⟩
  · by_contra hdone
    obtain ⟨henabled, on⟩ := running x m hm (Option.isSome_iff_ne_none.2 hdone)
    rcases hoff with hdisabled | hoff
    · cases henabled.symm.trans hdisabled
    · exact on hoff
  · obtain ⟨x, hx⟩ := accounted.ledger.kept serial hlt hopen
    obtain ⟨m, hm, hdone⟩ := (World.holds_iff accounted).1 hx
    obtain ⟨henabled, on⟩ := running x m hm (hdone ▸ rfl)
    refine ⟨x, m, hm, hdone, henabled, ?_⟩
    obtain ⟨a, ha⟩ := Option.isSome_iff_exists.1 hm.1
    cases hstate : a.state with
    | active =>
      exact (World.isActive_or_shadowed ha hstate).imp_right fun shadowed =>
        ⟨a, ha, .inr ⟨hstate, shadowed⟩⟩
    | inactive => exact absurd ⟨a, ha, hstate⟩ on
    | destroyed => exact .inr ⟨a, ha, .inl hstate⟩

/-- An actor is sent to a place, and then the one above it is switched off. -/
def offstage : Program Float32 Empty Unit := do
  let _ ← Program.edit (.spawn (.named "stage"))
  let _ ← Program.edit (.spawn { ActorSpec.named "child" with parent := some ⟨0⟩ })
  let _ ← HostFunctions.moveActorTo [.string "child", .float 1, .float 2, .float 3, .float 4]
  let () ← Program.request (.setActive ⟨0⟩ false)
  return ()

/-- The child is not active any more, but nobody has told its mover. -/
theorem exists_offstage : ∃ w : World Float32 Empty, Reachable (moving Empty) w ∧
    w.waits.issued = #[false] ∧ w.isActive ⟨1⟩ = false ∧
      (w.actor? ⟨1⟩).map Actor.state = some .active ∧
      ∃ m, w.MoverAt (⟨1⟩, 0) m ∧ m.done = some (.issued 0) := by
  have run : offstage.passes .bare fun _ w => decide (w.waits.issued = #[false]) &&
      !w.isActive ⟨1⟩ && decide ((w.actor? ⟨1⟩).map Actor.state = some .active) &&
      decide (((w.slot? ⟨1⟩ 0).bind (·.component)).bind Component.holds? = some (.issued 0)) := by
    decide +kernel
  have fit : moving Empty Unit offstage := by
    have calm : ∀ spec : ActorSpec Float32,
        (Request.edit (.spawn spec) : Request Float32 Empty).Calm := fun _ => trivial
    refine .perform (calm _) fun _ => .perform (calm _) fun _ => ?_
    refine WithMoves.move fun _ => ?_
    exact .perform trivial fun _ => WithMoves.done ()
  obtain ⟨_, w, hrun, checked⟩ := Program.exists_of_passes run
  simp only [Bool.and_eq_true, decide_eq_true_eq, Bool.not_eq_true'] at checked
  obtain ⟨⟨⟨hissued, hactive⟩, hstate⟩, hholds⟩ := checked
  refine ⟨w, .step (.empty rfl rfl rfl rfl) (.program fit hrun), hissued, hactive, hstate, ?_⟩
  obtain ⟨a, ha, -⟩ := Option.map_eq_some_iff.1 hstate
  exact World.exists_moverAt (Option.isSome_iff_exists.2 ⟨a, ha⟩) hholds

/-- Off stage the move of the child is waited for, and the stage is not active. -/
theorem waiting_moves_are_not_switched_off_offstage :
    MovingBehavior Empty ∧ ∃ w : World Float32 Empty, Reachable (moving Empty) w ∧
      w.waits.isComplete (.issued 0) = false ∧ w.isActive ⟨1⟩ = false ∧ DeactivationEnds w := by
  have behaved : MovingBehavior Empty := ⟨fun b => b.elim, fun _ => .done ()⟩
  obtain ⟨w, h, hissued, hactive, -⟩ := exists_offstage
  refine ⟨behaved, w, h, ?_, hactive, waiting_moves_are_not_switched_off behaved h⟩
  rw [Waits.isComplete, hissued]
  rfl

/-- Off stage the handle of a move is not complete while its actor is neither active nor about to
be removed. -/
theorem waiting_moves_may_be_shadowed : ¬ ∀ w : World Float32 Empty, Reachable (moving Empty) w →
    ∀ x m serial, w.MoverAt x m → m.done = some (.issued serial) →
      w.waits.isComplete (.issued serial) = false →
      w.isActive x.1 = true ∨ (w.actor? x.1).map Actor.state = some .destroyed := by
  intro claim
  obtain ⟨w, h, hissued, hactive, hstate, m, hm, hdone⟩ := exists_offstage
  have hopen : w.waits.isComplete (.issued 0) = false := by
    rw [Waits.isComplete, hissued]
    rfl
  rcases claim w h (⟨1⟩, 0) m 0 hm hdone hopen with active | destroyed
  · cases hactive.symm.trans active
  · cases hstate.symm.trans destroyed

end SheepScene
