import SheepScene.Proofs.Scene.Changes
import SheepScene.Proofs.Scene.Watching

/-!
# Hooks that are due

When an actor is switched its components are told one after the other, and when a component is
switched it is told itself. In between anything may happen, so that at a given moment some hooks are
due (`Due`). An invariant may depend on what is due and on which components are out of their slots
(`Pending`). `Owed` lists what is to be shown of such an invariant, one condition for each
elementary change: what is due comes up when something is switched, and is seen to when a component
begins to act on a hook or puts it off. From these conditions the invariant is kept by whatever an
impulse sets off, as long as a check is passed if the run is watched (`Owed.tells_respondWhile`).
Where nothing is checked it lasts (`Owed.lasting`).
-/

set_option autoImplicit false

namespace SheepScene

variable {K B : Type}

/-! ## What is due -/

/-- The hook that a component is sent when it or its actor has been switched on or off. -/
def Hook.ofSwitch (on : Bool) : Hook K :=
  if on then .enable else .disable

/-- A hook that is due. -/
inductive Due where
  /-- For all components of an actor that has been switched. -/
  | actor (e : EntityId) (on : Bool)
  /-- For the component at a place, whose actor has been switched. -/
  | follow (x : EntityId × Nat) (on : Bool)
  /-- For the component at a place, which has been switched itself. -/
  | toggle (x : EntityId × Nat) (on : Bool)

/-- What is due at a moment, the next first, and the places of components that are out. -/
structure Pending where
  due : List Due
  out : List (EntityId × Nat)

namespace Pending

/-- Nothing is due, and no component is out. -/
def none : Pending :=
  { due := [], out := [] }

/-- One more hook is due. -/
def owe (p : Pending) (d : Due) : Pending :=
  { p with due := d :: p.due }

/-- Some more hooks are due. -/
def oweAll (p : Pending) (l : List Due) : Pending :=
  { p with due := l ++ p.due }

/-- The component at a place is out as well. -/
def without (p : Pending) (x : EntityId × Nat) : Pending :=
  { p with out := x :: p.out }

/-- What is due besides a new due was due before. -/
theorem mem_of_owe {p : Pending} {d d' : Due} (h : d ∈ (p.owe d').due) (other : d ≠ d') :
    d ∈ p.due :=
  (List.mem_cons.1 h).resolve_left other

end Pending

/-- A hook is sent to a component: it was due, or it is sent in an update, to an enabled component
of an active actor. -/
inductive Sent (I : Pending → World K B → Prop) (p : Pending) (x : EntityId × Nat) :
    Hook K → World K B → Prop where
  | follow {w} (on : Bool) : I (p.owe (.follow x on)) w → Sent I p x (.ofSwitch on) w
  | toggle {w} (on : Bool) : I (p.owe (.toggle x on)) w → Sent I p x (.ofSwitch on) w
  | update {w hook} : hook.Updates → w.isActive x.1 = true → w.slotEnabled x.1 x.2 = true →
      I p w → Sent I p x hook w

/-- Weakening the invariant leaves a hook as due as it was. -/
theorem Sent.mono {I J : Pending → World K B → Prop} {p : Pending} {x : EntityId × Nat}
    {hook : Hook K} {w : World K B} (h : Sent I p x hook w)
    (weaker : ∀ p, I p w → J p w) : Sent J p x hook w := by
  cases h with
  | follow on hw => exact .follow on (weaker _ hw)
  | toggle on hw => exact .toggle on (weaker _ hw)
  | update updates active enabled hw => exact .update updates active enabled (weaker _ hw)

variable [Scalar K] [Behavior K B]

/-! ## Invariants of what is due -/

/-- Components that do not stand apart make requests of the scope and never come to stand apart,
and observers make requests of the scope. -/
structure Scope.BehavedBut (scope : Scope K B) (apart : Component K B → Prop) : Prop where
  react : ∀ c : Component K B, ¬ apart c → ∀ e hook, scope.fit _ (c.react e hook)
  stays : ∀ c : Component K B, ¬ apart c → ∀ e hook, (c.react e hook).Yields (¬ apart ·)
  observe : ∀ event, scope.fit Unit (Behavior.observe event)

/-- Where all components behave, none stands apart. -/
theorem Scope.Behaved.but {scope : Scope K B} (behaved : scope.Behaved) :
    scope.BehavedBut fun _ => False where
  react c _ := behaved.react c
  stays _ _ _ _ := Program.yields_of_forall (fun _ => not_false) _
  observe := behaved.observe

/-- What is to be shown of an invariant that speaks of what is due. Components that stand `apart`
act on hooks without setting off others; what they do is shown in one step. -/
structure Owed (scope : Scope K B) (check : World K B → Bool) (apart : Component K B → Prop)
    (I : Pending → World K B → Prop) : Prop where
  edit : ∀ {p w} x, scope.requests (.edit x) → I p w → I p (w.apply x).2
  record : ∀ {p w} event, event.Aside → I p w → I p (w.record event)
  rest : ∀ {p w} commands scheduler, I p w → I p { w with commands, scheduler }
  reclaim : ∀ {p w} e, I p w → I p (w.reclaim e)
  /-- An actor is switched, and its components are to be told. -/
  switch : ∀ {p : Pending} {w e} {a : Actor K} {on state}, w.actor? e = some a →
    SceneM.switched a.state on = some state → I p w →
    I (p.owe (.actor e on)) ((w.modifyActor e fun a => { a with state }).record
      (.actor (if on then .activated e else .deactivated e)))
  /-- They are those that the actor has when the first one is told. -/
  recount : ∀ {p : Pending} {w e on}, I (p.owe (.actor e on)) w →
    I (p.oweAll ((List.range (w.componentCount e)).map fun index => .follow (e, index) on)) w
  /-- Those that are disabled are not told. -/
  spare : ∀ {p : Pending} {w} {x : EntityId × Nat} {on}, w.slotEnabled x.1 x.2 = false →
    I (p.owe (.follow x on)) w → I p w
  /-- A component is switched, and is to be told. -/
  toggle : ∀ {p : Pending} {w} {x : EntityId × Nat} {slot on}, w.slot? x.1 x.2 = some slot →
    slot.enabled ≠ on →
    check (w.modifySlot x.1 x.2 fun slot => { slot with enabled := on }) = true → I p w →
    I (p.owe (.toggle x on)) (w.modifySlot x.1 x.2 fun slot => { slot with enabled := on })
  /-- Nobody is there to be told. -/
  gone : ∀ {p w} {x : EntityId × Nat} {hook}, w.slot? x.1 x.2 = none → Sent I p x hook w → I p w
  putOff : ∀ {p w} {x : EntityId × Nat} {hook slot}, w.slot? x.1 x.2 = some slot →
    slot.component = none → Sent I p x hook w → I p ((w.modifySlot x.1 x.2 fun slot =>
      { slot with deferred := slot.deferred ++ [hook] }).record (.hook x.1 x.2 .deferred hook))
  /-- A component leaves its slot and begins to act. -/
  take : ∀ {p : Pending} {w} {x : EntityId × Nat} {hook slot component},
    w.slot? x.1 x.2 = some slot → slot.component = some component → ¬ apart component →
    Sent I p x hook w →
    I (p.without x) ((w.setComponent x.1 x.2 none).record (.hook x.1 x.2 .began hook))
  /-- It goes on with the oldest hook that was put off. -/
  resume : ∀ {p : Pending} {w} {x : EntityId × Nat} {slot next deferred},
    w.slot? x.1 x.2 = some slot → slot.deferred = next :: deferred → I (p.without x) w →
    I (p.without x) ((w.modifySlot x.1 x.2 fun slot => { slot with deferred }).record
      (.hook x.1 x.2 .began next))
  put : ∀ {p : Pending} {w} {x : EntityId × Nat} {slot} component, w.slot? x.1 x.2 = some slot →
    slot.deferred = [] → I (p.without x) w → I p (w.setComponent x.1 x.2 (some component))
  drop : ∀ {p : Pending} {w} {x : EntityId × Nat} component, w.slot? x.1 x.2 = none →
    I (p.without x) w → I p (w.dropComponent component)
  /-- A component that stands apart is told. -/
  told : ∀ {perform : Performer K B} {p w w'} {x : EntityId × Nat} {hook slot component},
    (∀ query, perform (.ask query) = do return (← get).answer query) →
    (∀ x, perform (.edit x) = modifyGet fun w => w.apply x) → w.slot? x.1 x.2 = some slot →
    slot.component = some component → apart component → Sent I p x hook w →
    SceneM.answer perform (.hook x.1 x.2 hook) w = .ok () w' →
    w'.scheduler = w.scheduler ∧ I p w'

/-- An invariant, together with a scheduler of fit host functions. -/
def Fitting (scope : Scope K B) (I : Pending → World K B → Prop) (p : Pending)
    (w : World K B) : Prop :=
  FitScheduler scope.fit w ∧ I p w

/-- What is shown of responses: observers keep the invariant, hooks are seen to when they are sent,
and nothing is set off in a world that does not pass the check. -/
structure Tells (check : World K B → Bool) (I : Pending → World K B → Prop)
    (respond : Impulse K → SceneM K B Unit) : Prop where
  event : ∀ event p, Keeps (I p) (respond (.event event))
  hook : ∀ x hook p, Ensures (Sent I p x hook) (respond (.hook x.1 x.2 hook)) fun _ => I p
  barred : ∀ {impulse w}, check w = false → ∀ r w', respond impulse w ≠ .ok r w'

omit [Scalar K] [Behavior K B] in
/-- Hooks of an update are sent to enabled components for as long as the actor is active. -/
theorem Tells.visit {check : World K B → Bool} {I : Pending → World K B → Prop}
    {respond : Impulse K → SceneM K B Unit} (tells : Tells check I respond) (e : EntityId)
    (hook : Hook K) (updates : hook.Updates) (indices : List Nat) (p : Pending) :
    Keeps (I p) (SceneM.dispatchWhileActive respond e hook indices) := by
  induction indices with
  | nil => exact keeps_pure _
  | cons index rest ih =>
    unfold SceneM.dispatchWhileActive
    refine ensures_getBind fun w hw => ?_
    split
    · rename_i active
      refine ensures_bind (Q := fun _ => I p) ?_ fun _ => ih
      refine ensures_getBind ?_
      rintro _ rfl
      split
      · rename_i enabled
        exact (tells.hook (e, index) hook p).imp
          (fun _ hs => hs ▸ .update updates active enabled hw) fun _ _ hs => hs
      · exact ensures_at hw (keeps_pure _)
    · exact ensures_at hw (keeps_pure _)

omit [Scalar K] [Behavior K B] in
/-- Nothing happens when there is nothing to switch. -/
theorem SceneM.setActive_of_none {respond : Impulse K → SceneM K B Unit} {w : World K B}
    {e : EntityId} {on : Bool}
    (idle : (w.actor? e).bind (fun a => SceneM.switched a.state on) = none) :
    SceneM.setActive respond e on w = .ok () w := by
  unfold SceneM.setActive
  refine (bind_of_ok (t := w) rfl).trans ?_
  rw [idle]
  rfl

namespace Owed

variable {scope : Scope K B} {check : World K B → Bool} {apart : Component K B → Prop}
  {I : Pending → World K B → Prop} (owed : Owed scope check apart I)
include owed

/-- Edits of the scope keep the invariant and the scheduler fitting. -/
theorem fitting_apply {p : Pending} {w : World K B} {x : Edit K B}
    (allowed : scope.requests (.edit x)) (h : Fitting scope I p w) :
    Fitting scope I p (w.apply x).2 :=
  ⟨fun s hs => h.1 s (scheduler_apply w x ▸ hs), owed.edit x allowed h.2⟩

/-- Notes in the journal keep the invariant and the scheduler fitting. -/
theorem fitting_record {p : Pending} {w : World K B} {event : Event K B} (aside : event.Aside)
    (h : Fitting scope I p w) : Fitting scope I p (w.record event) :=
  ⟨h.1, owed.record event aside h.2⟩

/-- What requests and frames do by themselves keeps the invariant. -/
theorem steady : Steady scope.fit (Serves (Fitting scope I)) (Fitting scope I) where
  program serves _ _ fit _ := serves.keeps_only (fun _ _ => owed.fitting_apply)
    (fun _ _ => owed.fitting_record) fit
  record _ := owed.fitting_record
  tick dt := owed.fitting_apply (scope.tick dt)
  dequeue {_ w} hw := ⟨hw.1, owed.rest (some []) w.scheduler hw.2⟩
  place e placement := owed.fitting_apply (scope.place e placement)
  destroy e := owed.fitting_apply (scope.destroy e)
  reclaim e hw := ⟨fun s hs => hw.1 s (scheduler_reclaim _ e ▸ hs), owed.reclaim e hw.2⟩
  table hw := hw.1 _
  lend {_ w} hw := ⟨fun _ => nofun, owed.rest w.commands none hw.2⟩
  restore {_ w scheduler} fit hw := by
    refine ⟨fun s hs => ?_, owed.rest w.commands (some scheduler) hw.2⟩
    cases hs
    exact fit

/-! ## Telling components -/

section Telling

variable {respond : Impulse K → SceneM K B Unit}
  (tells : Tells check (Fitting scope I) respond)
include tells

/-- A component of an actor that was switched is told, unless it is disabled. -/
theorem dispatchOne (p : Pending) (x : EntityId × Nat) (on : Bool) :
    Ensures (Fitting scope I (p.owe (.follow x on)))
      (SceneM.dispatch respond x.1 (.ofSwitch on) x.2) fun _ => Fitting scope I p := by
  refine ensures_getBind fun w hw => ?_
  split
  · exact (tells.hook x (.ofSwitch on) p).imp (fun _ hs => hs ▸ .follow on hw) fun _ _ hs => hs
  · rename_i disabled
    refine ensures_pure fun _ hs => hs ▸ ⟨hw.1, owed.spare ?_ hw.2⟩
    exact Bool.eq_false_iff.2 disabled

/-- They are told one after the other. -/
theorem dispatchAll (p : Pending) (e : EntityId) (on : Bool) (indices : List Nat) :
    Ensures (Fitting scope I (p.oweAll (indices.map fun index => .follow (e, index) on)))
      (indices.forM (SceneM.dispatch respond e (.ofSwitch on))) fun _ => Fitting scope I p := by
  induction indices with
  | nil => exact ensures_pure fun _ hw => hw
  | cons index rest ih =>
    let later : Pending := p.oweAll (rest.map fun index => .follow (e, index) on)
    exact ensures_bind (owed.dispatchOne tells later (e, index) on) fun _ => ih

/-- What is known of an actor that has just been switched is kept while its components are told. -/
theorem setActive_of_switched {w : World K B} {e : EntityId} {on : Bool} {state : ActorState}
    {p : Pending} (switched : (w.actor? e).bind (fun a => SceneM.switched a.state on) = some state)
    (h : Fitting scope I (p.owe (.actor e on)) ((w.modifyActor e fun a => { a with state }).record
      (.actor (if on then .activated e else .deactivated e)))) :
    Ensures (· = w) (SceneM.setActive respond e on) fun _ => Fitting scope I p := by
  unfold SceneM.setActive
  refine ensures_getBind fun v hv => ?_
  rw [hv, switched]
  let due : Pending := p.owe (.actor e on)
  unfold SceneM.emit
  refine ensures_bind (Q := fun _ v => v = w.modifyActor e fun a => { a with state })
    (ensures_modify fun _ hs => by rw [hs]) fun _ => ?_
  refine ensures_bind (Q := fun _ => Fitting scope I due) ?_ fun _ => ?_
  · refine ensures_bind (Q := fun _ => Fitting scope I due) (ensures_modify fun _ hs => ?_)
      fun _ => tells.event _ due
    rw [hs]
    exact h
  · refine ensures_bind (Q := fun indices =>
      Fitting scope I (p.oweAll (indices.map fun index => .follow (e, index) on))) ?_
      fun indices => owed.dispatchAll tells p e on indices
    refine ensures_getBind fun v hv => ensures_pure fun _ hs => ?_
    rw [hs]
    exact ⟨hv.1, owed.recount hv.2⟩

/-- Switching an actor keeps what is due in its place. -/
theorem setActive (e : EntityId) (on : Bool) (p : Pending) :
    Keeps (Fitting scope I p) (SceneM.setActive respond e on) := by
  intro w hw r w' hrun
  cases switched : (w.actor? e).bind fun a => SceneM.switched a.state on with
  | none =>
    rw [SceneM.setActive_of_none switched] at hrun
    cases hrun
    exact hw
  | some state =>
    obtain ⟨a, ha, hstate⟩ := Option.bind_eq_some_iff.1 switched
    refine owed.setActive_of_switched tells switched ?_ w rfl r w' hrun
    exact ⟨hw.1, owed.switch ha hstate hw.2⟩

/-- Switching a component keeps what is due in its place. -/
theorem setEnabled (e : EntityId) (kind : ComponentKind) (on : Bool) (p : Pending) :
    Keeps (Fitting scope I p) (SceneM.setEnabled respond e kind on) := by
  unfold SceneM.setEnabled
  refine ensures_getBind fun w hw => ?_
  dsimp only
  split
  · exact ensures_at hw (keeps_pure _)
  · rename_i index found
    obtain ⟨slots, hslots, found⟩ := Option.bind_eq_some_iff.1 found
    obtain ⟨i, first, found⟩ := Option.bind_eq_some_iff.1 found
    split at found
    · cases found
    · rename_i changes
      cases found
      obtain ⟨inside, -, -⟩ := Array.findIdx?_eq_some_iff_getElem.1 first
      have hslot : w.slot? e index = some slots[index] := by
        rw [World.slot?, hslots, Option.bind_some, Array.getElem?_eq_getElem inside]
      rw [Slots.enabled?, Array.getElem?_eq_getElem inside, Option.map_some,
        Option.some.injEq] at changes
      refine ensures_bind (Q := fun _ s => s = w.modifySlot e index fun slot =>
        { slot with enabled := on }) (ensures_modify fun _ hs => by rw [hs]) fun _ => ?_
      -- the run comes to an end only if the check is passed when the component is told
      rintro _ rfl r w' hrun
      have passes : check (w.modifySlot e index fun slot =>
          { slot with enabled := on }) = true := by
        by_contra fails
        exact tells.barred (Bool.eq_false_iff.2 fails) r w' hrun
      have sent : Sent (Fitting scope I) p (e, index) (.ofSwitch on)
          (w.modifySlot e index fun slot => { slot with enabled := on }) :=
        .toggle on ⟨hw.1, owed.toggle hslot changes passes hw.2⟩
      exact tells.hook (e, index) _ p _ sent r w' hrun

/-- An answer that tells whoever is due does all that is to be shown of responses. -/
theorem responds : Responds (Fitting scope I) respond where
  event := tells.event
  visit := tells.visit
  setActive := owed.setActive tells
  setEnabled := owed.setEnabled tells

/-- Requests performed within an answer keep what is due. -/
theorem serves_performWithin : Serves (Fitting scope I) (SceneM.performWithin respond) :=
  owed.steady.serves_performWithin (owed.responds tells)

/-- Requests performed with an answer keep what is due. -/
theorem serves_performWith : Serves (Fitting scope I) (SceneM.performWith respond) :=
  owed.steady.serves_performWith (owed.responds tells) (owed.serves_performWithin tells)

end Telling

/-! ## Responses -/

section Respond

variable (behaved : scope.BehavedBut apart)

include behaved in
/-- A component that has begun to act, whichever it is, and that is out of its slot. -/
theorem serve {perform : Performer K B} (serves : Serves (Fitting scope I) perform) (rounds : Nat)
    (x : EntityId × Nat) {component : Component K B} (among : ¬ apart component) (hook : Hook K)
    (p : Pending) : Ensures
      (fun w => Fitting scope I (p.without x) (w.record (.hook x.1 x.2 .began hook)))
      (SceneM.serve perform rounds x.1 x.2 component hook) fun _ => Fitting scope I p := by
  induction rounds generalizing component hook with
  | zero => exact ensures_throw _
  | succ rounds ih =>
    unfold SceneM.serve
    refine ensures_bind (Q := fun _ => Fitting scope I (p.without x))
      (ensures_modify fun _ hw => hw) fun _ => ?_
    refine ensures_bind (Q := fun c w => ¬ apart c ∧ Fitting scope I (p.without x) w) ?_
      fun component => ?_
    · have keeps := owed.steady.program serves (behaved.react component among x.1 hook)
      exact fun w hw c w' hrun => ⟨(behaved.stays component among x.1 hook).run hrun,
        keeps _ w hw c w' hrun⟩
    refine ensures_bind (Q := fun _ w => ¬ apart component ∧ Fitting scope I (p.without x) w)
      (ensures_modify fun _ hw => ⟨hw.1, owed.fitting_record rfl hw.2⟩) fun _ => ?_
    refine ensures_getBind ?_
    rintro w ⟨among, hw⟩
    split
    · rename_i hslot
      refine ensures_modify fun _ hs => hs ▸ ⟨fun s hs => hw.1 s ?_, owed.drop component hslot hw.2⟩
      rwa [World.dropComponent_eq] at hs
    · rename_i slot hslot
      split
      · rename_i nothing
        exact ensures_modify fun _ hs => hs ▸ ⟨hw.1, owed.put component hslot nothing hw.2⟩
      · rename_i next deferred waiting
        refine ensures_bind (ensures_modify fun _ hs => ?_) fun _ => ih among next
        exact hs ▸ ⟨hw.1, owed.resume hslot waiting hw.2⟩

include behaved in
/-- A component is told. -/
theorem answer_hook {perform : Performer K B} (serves : Serves (Fitting scope I) perform)
    (x : EntityId × Nat) (hook : Hook K) (p : Pending) :
    Ensures (Sent (Fitting scope I) p x hook) (SceneM.answer perform (.hook x.1 x.2 hook))
      fun _ => Fitting scope I p := by
  unfold SceneM.answer
  refine ensures_getBind fun w sent => ?_
  have fitting : FitScheduler scope.fit w := by
    cases sent with
    | follow _ hw | toggle _ hw | update _ _ _ hw => exact hw.1
  have sent : Sent I p x hook w := sent.mono fun _ hw => hw.2
  split
  · rename_i hslot
    exact ensures_pure fun _ hs => hs ▸ ⟨fitting, owed.gone hslot sent⟩
  · rename_i slot hslot
    split
    · rename_i out
      exact ensures_modify fun _ hs => hs ▸ ⟨fitting, owed.putOff hslot out sent⟩
    · rename_i component present
      by_cases alone : apart component
      · intro v hv r w' hrun
        rw [hv] at hrun
        have whole : SceneM.answer perform (.hook x.1 x.2 hook) w = .ok r w' := by
          unfold SceneM.answer
          refine (bind_of_ok (t := w) rfl).trans ?_
          rw [hslot]
          dsimp only
          rw [present]
          exact hrun
        obtain ⟨same, hw⟩ := owed.told serves.ask serves.edit hslot present alone sent whole
        exact ⟨fun s hs => fitting s (same ▸ hs), hw⟩
      · refine ensures_bind (ensures_modify fun _ hs => ?_) fun _ =>
          owed.serve behaved serves SceneM.hookLimit x alone hook p
        exact hs ▸ ⟨fitting, owed.take hslot present alone sent⟩

include behaved in
/-- Whatever an impulse sets off while the check is passed, to any depth, keeps the invariant. -/
theorem tells_respondWhile (depth : Nat) :
    Tells check (Fitting scope I) (SceneM.respondWhile check depth) := by
  induction depth with
  | zero => exact ⟨fun _ _ => ensures_throw _, fun _ _ _ => ensures_throw _, fun _ _ _ => nofun⟩
  | succ depth ih =>
    have serves := owed.serves_performWith ih
    have passed : ∀ {impulse} {P : World K B → Prop} {Q : Unit → World K B → Prop},
        Ensures P (SceneM.answer (SceneM.performWith (SceneM.respondWhile check depth)) impulse) Q →
        Ensures P (SceneM.respondWhile check (depth + 1) impulse) Q := by
      intro impulse P Q answered
      unfold SceneM.respondWhile
      refine ensures_getBind fun w hw => ?_
      split
      · exact ensures_at hw answered
      · exact ensures_throw _
    refine ⟨fun event p => passed ?_, fun x hook p => passed ?_,
      fun {impulse w} fails r w' hrun => ?_⟩
    · exact owed.steady.program serves (behaved.observe event) p
    · exact owed.answer_hook behaved serves x hook p
    · unfold SceneM.respondWhile at hrun
      obtain ⟨_, _, hget, hrun⟩ := bind_ok hrun
      cases hget
      rw [if_neg (by rw [fails]; exact Bool.false_ne_true)] at hrun
      cases hrun

end Respond

end Owed

/-- Where nothing is checked, the invariant lasts whatever happens to a scene. -/
theorem Owed.lasting {scope : Scope K B} {apart : Component K B → Prop}
    {I : Pending → World K B → Prop} (owed : Owed scope (fun _ => true) apart I)
    (behaved : scope.BehavedBut apart) :
    Lasting scope.fit (Serves (Fitting scope I)) (Fitting scope I) := by
  have tells := owed.tells_respondWhile behaved SceneM.hookLimit
  rw [SceneM.respondWhile_true] at tells
  exact {
    steady := owed.steady
    responds := owed.responds tells
    within := owed.serves_performWithin tells
    perform := owed.serves_performWith tells }

end SheepScene
