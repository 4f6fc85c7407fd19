import SheepScene.Proofs.Scene.Tidy
import SheepScene.Proofs.Scene.Permanence
import SheepScene.Proofs.Scene.Stages
import Mathlib.Logic.Relation

/-!
# Scenes change by change

Whatever a scene does comes about by elementary changes: an edit, a switch, a component that leaves
its slot to act on a hook, a hook that is put off, and so on. `Change` lists them. An instant of a
scene is its world together with the components that are acting, the innermost first, so the
instants that lie between the changes are those that hooks and observers can see.

Every run leads from instant to instant by such changes, at any depth (`Scope.led_respond`,
`SceneStep.leads`). What no change breaks holds at all instants, also in the middle of a hook; what
a run adds to the journal is what its changes add.

A `Scope` says which requests programs make and which hooks are sent. A change lets any hook come to
any component. In the changes that scenes make (`Scope.Step`) an update comes to a component only
while its actor is active, and runs are made of these (`SceneStep.steps`).
-/

set_option autoImplicit false

namespace SheepScene

variable {K B : Type}

/-- A component that acts on a hook, by its place. -/
structure Acting (K : Type) where
  actor : EntityId
  index : Nat
  hook : Hook K

/-- The place of a component that acts. -/
def Acting.place (x : Acting K) : EntityId × Nat :=
  (x.actor, x.index)

/-- An instant of a scene: the components that are acting, the innermost first, and the world. -/
structure Instant (K B : Type) where
  acting : List (Acting K)
  world : World K B

/-- Whether a hook is one of the two updates of a frame. -/
def Hook.isUpdate : Hook K → Bool
  | .update _ | .lateUpdate _ => true
  | .enable | .disable => false

/-- An impulse is due in a world unless it is an update for an actor that is not active. -/
def Impulse.Due (w : World K B) : Impulse K → Prop
  | .hook e _ h => h.isUpdate → w.isActive e
  | .event _ => True

/-- Requests for updates. -/
def Request.Updates : Request K B → Prop
  | .updateActor .. | .lateUpdateActor .. | .updateActors | .lateUpdateActors => True
  | _ => False

/-- Which requests programs make, and which hooks are sent to components. -/
structure Scope (K B : Type) where
  requests : Request K B → Prop
  hooks : Hook K → Prop
  destroy : ∀ e, requests (.edit (.destroy e))
  place : ∀ e placement, requests (.edit (.place e placement))
  tick : ∀ dt, requests (.edit (.tick dt))
  enable : hooks .enable
  disable : hooks .disable
  updates : ∀ request, requests request → request.Updates →
    ∀ dt, hooks (.update dt) ∧ hooks (.lateUpdate dt)

namespace Scope

/-- The class of programs that make requests of the scope. -/
def fit (scope : Scope K B) : Fitness K B :=
  fun _ p => p.Only scope.requests

/-- Components and observers make requests of the scope. -/
structure Behaved (scope : Scope K B) [Scalar K] [Behavior K B] : Prop where
  react : ∀ (c : Component K B) e hook, scope.fit _ (c.react e hook)
  observe : ∀ event, scope.fit Unit (Behavior.observe event)

/-- Impulses that send hooks of the scope. -/
def Sends (scope : Scope K B) : Impulse K → Prop
  | .hook _ _ hook => scope.hooks hook
  | .event _ => True

/-- Requests that can be performed in the scope. -/
def Permits (scope : Scope K B) (request : Request K B) : Prop :=
  (∀ x, request = .edit x → scope.requests request) ∧
    (request.Updates → ∀ dt, scope.hooks (.update dt) ∧ scope.hooks (.lateUpdate dt))

/-- A request of the scope can be performed in it. -/
theorem permits {scope : Scope K B} {request : Request K B} (h : scope.requests request) :
    scope.Permits request :=
  ⟨fun _ _ => h, scope.updates request h⟩

/-- The hooks that tell of a switch are sent in every scope, and they are no updates. -/
theorem tells (scope : Scope K B) (on : Bool) :
    scope.hooks (if on then .enable else .disable) ∧
      ∀ {P : Prop}, (if on then Hook.enable else .disable : Hook K).isUpdate → P := by
  cases on with
  | true => exact ⟨scope.enable, nofun⟩
  | false => exact ⟨scope.disable, nofun⟩

end Scope

/-- The stages that going on with a hook that was put off adds to the journal. -/
theorem World.stages_resume (w : World K B) (e : EntityId) (index : Nat) (hook next : Hook K)
    (f : Slot K B → Slot K B) :
    (((w.record (.hook e index .ended hook)).modifySlot e index f).record
      (.hook e index .began next)).stages
        = w.stages ++ [⟨e, index, .ended, hook⟩, ⟨e, index, .began, next⟩] := by
  refine (stages_record_hook _ e index .began next).trans ?_
  change (w.record (.hook e index .ended hook)).stages ++ [_] = _
  rw [stages_record_hook, List.append_assoc]
  rfl

open World in
/-- The elementary changes of a scene. -/
inductive Change [Scalar K] [Behavior K B] (scope : Scope K B) :
    Instant K B → Instant K B → Prop where
  | edit {acting w} (x : Edit K B) : scope.requests (.edit x) →
      Change scope ⟨acting, w⟩ ⟨acting, (w.apply x).2⟩
  /-- Events other than stages of hooks are written into the journal. -/
  | record {acting w event} : event.stage? = none →
      Change scope ⟨acting, w⟩ ⟨acting, w.record event⟩
  | dequeue {acting w} : Change scope ⟨acting, w⟩ ⟨acting, { w with commands := some [] }⟩
  | lend {acting w} : Change scope ⟨acting, w⟩ ⟨acting, { w with scheduler := none }⟩
  | restore {acting w scheduler} : FitTable scope.fit scheduler.table →
      Change scope ⟨acting, w⟩ ⟨acting, { w with scheduler := some scheduler }⟩
  | reclaim {acting w} (e : EntityId) : Change scope ⟨acting, w⟩ ⟨acting, w.reclaim e⟩
  | switch {acting w e a active state} : w.actor? e = some a →
      SceneM.switched a.state active = some state →
      Change scope ⟨acting, w⟩ ⟨acting, w.modifyActor e fun a => { a with state }⟩
  | enable {acting w} (e : EntityId) (index : Nat) (enabled : Bool) :
      Change scope ⟨acting, w⟩ ⟨acting, w.modifySlot e index fun slot => { slot with enabled }⟩
  /-- A hook for a component that is acting is put off. -/
  | putOff {acting w e index slot hook} : scope.hooks hook → w.slot? e index = some slot →
      slot.component = none →
      Change scope ⟨acting, w⟩ ⟨acting, (w.modifySlot e index fun slot =>
        { slot with deferred := slot.deferred ++ [hook] }).record (.hook e index .deferred hook)⟩
  /-- A component leaves its slot and begins to act on a hook. -/
  | start {acting w e index slot component hook} : scope.hooks hook →
      w.slot? e index = some slot → slot.component = some component →
      Change scope ⟨acting, w⟩ ⟨⟨e, index, hook⟩ :: acting, (w.modifySlot e index fun slot =>
        { slot with component := none }).record (.hook e index .began hook)⟩
  /-- A component comes to an end and goes on with the first hook that was put off. -/
  | resume {acting w e index hook slot next deferred} : w.slot? e index = some slot →
      slot.deferred = next :: deferred →
      Change scope ⟨⟨e, index, hook⟩ :: acting, w⟩ ⟨⟨e, index, next⟩ :: acting,
        ((w.record (.hook e index .ended hook)).modifySlot e index fun slot =>
          { slot with deferred }).record (.hook e index .began next)⟩
  /-- A component comes to an end and goes back into its slot. -/
  | finish {acting w e index hook slot} (component : Component K B) :
      w.slot? e index = some slot → slot.deferred = [] →
      Change scope ⟨⟨e, index, hook⟩ :: acting, w⟩ ⟨acting,
        (w.record (.hook e index .ended hook)).modifySlot e index fun slot =>
          { slot with component := some component }⟩
  /-- A component comes to an end after its actor has gone. -/
  | vanish {acting w e index hook} (component : Component K B) : w.slot? e index = none →
      Change scope ⟨⟨e, index, hook⟩ :: acting, w⟩ ⟨acting,
        (w.record (.hook e index .ended hook)).dropComponent component⟩

/-- In a change a component is asked for a hook: it begins to act on it, or the hook is put off. -/
def Asked (x y : Instant K B) (e : EntityId) (index : Nat) (hook : Hook K) : Prop :=
  ∃ stage, stage ≠ .ended ∧ y.world.stages = x.world.stages ++ [⟨e, index, stage, hook⟩]

namespace Scope

variable [Scalar K] [Behavior K B]

/-- One instant leads to another one by changes. -/
def Leads (scope : Scope K B) : Instant K B → Instant K B → Prop :=
  Relation.ReflTransGen (Change scope)

/-- A change as scenes make it: components are asked for updates only while their actors are active.
-/
structure Step (scope : Scope K B) (x y : Instant K B) : Prop where
  change : Change scope x y
  due : ∀ {e index hook}, Asked x y e index hook → hook.isUpdate → x.world.isActive e

/-- One instant leads to another one by changes that scenes make. -/
def Steps (scope : Scope K B) : Instant K B → Instant K B → Prop :=
  Relation.ReflTransGen scope.Step

/-- The worlds to which an instant leads, by changes that scenes make, with the given components
acting. -/
def Led (scope : Scope K B) (start : Instant K B) (acting : List (Acting K)) (w : World K B) :
    Prop :=
  scope.Steps start ⟨acting, w⟩

/-- Whatever due impulses set off is made of changes that scenes make. -/
def Responsive (scope : Scope K B) (origin : Instant K B)
    (respond : Impulse K → SceneM K B Unit) : Prop :=
  ∀ impulse, scope.Sends impulse → ∀ acting,
    Ensures (fun w => scope.Led origin acting w ∧ impulse.Due w) (respond impulse)
      fun _ => scope.Led origin acting

variable {scope : Scope K B}

/-- Changes that scenes make are changes. -/
theorem Steps.leads {x y : Instant K B} (h : scope.Steps x y) : scope.Leads x y :=
  Relation.ReflTransGen.mono (fun _ _ step => Step.change step) x y h

namespace Led

variable {start : Instant K B} {acting acting' : List (Acting K)} {w w' : World K B}

/-- A world to which scenes lead is one to which changes lead. -/
theorem leads (h : scope.Led start acting w) : scope.Leads start ⟨acting, w⟩ :=
  Steps.leads h

/-- A change that is not about hooks. -/
theorem quiet (h : scope.Led start acting w) (change : Change scope ⟨acting, w⟩ ⟨acting', w'⟩)
    (stages : w'.stages = w.stages) : scope.Led start acting' w' := by
  refine h.tail ⟨change, fun ⟨stage, _, asked⟩ => ?_⟩
  have short := congrArg List.length (asked.symm.trans stages)
  simp at short

/-- A change in which a component comes to an end with a hook. -/
theorem ending (h : scope.Led start acting w) (change : Change scope ⟨acting, w⟩ ⟨acting', w'⟩)
    {e : EntityId} {index : Nat} {hook : Hook K} {rest : List (Stage K)}
    (stages : w'.stages = w.stages ++ ⟨e, index, .ended, hook⟩ :: rest) :
    scope.Led start acting' w' := by
  refine h.tail ⟨change, fun ⟨stage, notEnded, asked⟩ => ?_⟩
  obtain ⟨same, -⟩ := List.cons.inj (List.append_cancel_left (asked.symm.trans stages))
  exact absurd (congrArg Stage.stage same) notEnded

/-- A change in which a component is asked for a hook that is due. -/
theorem asking (h : scope.Led start acting w) (change : Change scope ⟨acting, w⟩ ⟨acting', w'⟩)
    {e : EntityId} {index : Nat} {stage : HookStage} {hook : Hook K}
    (stages : w'.stages = w.stages ++ [⟨e, index, stage, hook⟩])
    (due : hook.isUpdate → w.isActive e) : scope.Led start acting' w' := by
  refine h.tail ⟨change, fun ⟨stage', _, asked⟩ => ?_⟩
  obtain ⟨same, -⟩ := List.cons.inj (List.append_cancel_left (asked.symm.trans stages))
  cases same
  exact due

end Led

/-- Impulses that are always due. -/
theorem Responsive.keeps {origin : Instant K B} {respond : Impulse K → SceneM K B Unit}
    (responses : scope.Responsive origin respond) (impulse : Impulse K)
    (sent : scope.Sends impulse) (due : ∀ w : World K B, impulse.Due w)
    (acting : List (Acting K)) : Keeps (scope.Led origin acting) (respond impulse) :=
  fun w hw => responses impulse sent acting w ⟨hw, due w⟩

end Scope

/-! ## What changes keep -/

section Changes

variable [Scalar K] [Behavior K B] {scope : Scope K B} {x y : Instant K B}

/-- A property that no change breaks holds at every later instant. -/
theorem Scope.Leads.keeps {I : Instant K B → Prop}
    (step : ∀ {x y}, Change scope x y → I x → I y) (h : scope.Leads x y) (hx : I x) : I y := by
  induction h with
  | refl => exact hx
  | tail _ change ih => exact step change ih

/-- No change takes anything back. -/
theorem Change.precedes (h : Change scope x y) : x.world.Precedes y.world := by
  cases h with
  | edit x _ => exact World.precedes_apply _ x
  | record _ | dequeue | lend | restore _ => exact .of_entities rfl
  | reclaim e => exact .reclaim _ e
  | switch ha hstate => exact .switch ha hstate
  | enable e index enabled => exact .modifySlot _ e index _
  | putOff | start => exact (World.Precedes.modifySlot _ _ _ _).trans (.record _ _)
  | resume =>
    exact ((World.Precedes.record _ _).trans (.modifySlot _ _ _ _)).trans (.record _ _)
  | finish component => exact (World.Precedes.record _ _).trans (.modifySlot _ _ _ _)
  | vanish component => exact (World.Precedes.record _ _).trans (.dropComponent _ component)

/-- Whatever changes lead to comes later. -/
theorem Scope.Leads.precedes (h : scope.Leads x y) : x.world.Precedes y.world :=
  h.keeps (I := fun y => x.world.Precedes y.world) (fun change hx => hx.trans change.precedes)
    (.refl _)

/-- The scheduler has host functions of the scope at all instants. -/
theorem Scope.Leads.fitScheduler (h : scope.Leads x y) (fitting : FitScheduler scope.fit x.world) :
    FitScheduler scope.fit y.world := by
  refine h.keeps (I := fun y => FitScheduler scope.fit y.world) (fun change hx => ?_) fitting
  have same : ∀ {w w' : World K B}, w'.scheduler = w.scheduler → FitScheduler scope.fit w →
      FitScheduler scope.fit w' := by
    intro w w' h hw scheduler hscheduler
    exact hw scheduler (h ▸ hscheduler)
  cases change with
  | edit x _ => exact same (scheduler_apply _ x) hx
  | record _ | dequeue => exact hx
  | lend => exact fun scheduler hnone => nomatch hnone
  | restore fit =>
    intro scheduler hsome
    cases hsome
    exact fit
  | reclaim e => exact same (scheduler_reclaim _ e) hx
  | switch _ _ | enable | putOff | start | resume | finish => exact hx
  | vanish component => exact same (SameScene.dropComponent _ component).scheduler hx

end Changes

/-! ## Runs are made of changes -/

namespace Scope

section Runs

variable [Scalar K] [Behavior K B] {scope : Scope K B} {origin : Instant K B}

section Responses

variable {respond : Impulse K → SceneM K B Unit} (responses : scope.Responsive origin respond)
  (acting : List (Acting K))

/-- A note in the journal that is not about hooks is one of the changes. -/
theorem led_record {event : Event K B} (aside : event.stage? = none) :
    Keeps (scope.Led origin acting)
      (modify fun w => w.record event : SceneM K B Unit) :=
  keeps_modify fun w hw => hw.quiet (.record aside) (World.stages_record_aside w aside)

include responses

/-- Telling the observers of an event is made of changes. -/
theorem led_emit (event : ActorEvent K) :
    Keeps (scope.Led origin acting) (SceneM.emit respond event) :=
  keeps_bind (led_record acting rfl) fun _ =>
    responses.keeps (.event event) trivial (fun _ => trivial) acting

/-- Sending a hook to a component is made of changes, an update only to that of an active actor. -/
theorem led_dispatch (e : EntityId) {hook : Hook K} (sent : scope.hooks hook) (index : Nat) :
    Ensures (fun w => scope.Led origin acting w ∧ (hook.isUpdate → w.isActive e))
      (SceneM.dispatch respond e hook index) fun _ => scope.Led origin acting := by
  unfold SceneM.dispatch
  refine ensures_getBind fun w hw => ?_
  split
  · exact ensures_at hw (responses (.hook e index hook) sent acting)
  · exact ensures_pure fun _ hv => hv ▸ hw.1

/-- Sending a hook to the components of an actor, as long as it is active, is made of changes. -/
theorem led_dispatchWhileActive (e : EntityId) {hook : Hook K} (sent : scope.hooks hook)
    (indices : List Nat) :
    Keeps (scope.Led origin acting) (SceneM.dispatchWhileActive respond e hook indices) := by
  induction indices with
  | nil => exact keeps_pure _
  | cons index rest ih =>
    unfold SceneM.dispatchWhileActive
    refine ensures_getBind fun w hw => ?_
    split
    · rename_i active
      have sends := led_dispatch responses acting e sent index
      exact ensures_bind (ensures_at ⟨hw, fun _ => active⟩ sends) fun _ => ih
    · exact ensures_at hw (keeps_pure _)

/-- Switching an actor is made of changes. -/
theorem led_setActive (e : EntityId) (active : Bool) :
    Keeps (scope.Led origin acting) (SceneM.setActive respond e active) := by
  obtain ⟨sent, due⟩ := scope.tells active
  unfold SceneM.setActive
  refine ensures_getBind fun w hw => ?_
  split
  · exact ensures_at hw (keeps_pure _)
  · rename_i state hswitched
    obtain ⟨a, ha, hstate⟩ := Option.bind_eq_some_iff.1 hswitched
    refine ensures_bind (Q := fun _ => scope.Led origin acting) ?_ fun _ => ?_
    · exact ensures_modify fun v hv => hv ▸ hw.quiet (.switch ha hstate) rfl
    · refine keeps_bind (led_emit responses acting _) fun _ => ?_
      refine keeps_bind (Steady.places (I := scope.Led origin) e acting) fun indices => ?_
      exact keeps_forM fun index _ v hv =>
        led_dispatch responses acting e sent index v ⟨hv, due⟩

/-- Switching a component is made of changes. -/
theorem led_setEnabled (e : EntityId) (kind : ComponentKind) (enabled : Bool) :
    Keeps (scope.Led origin acting) (SceneM.setEnabled respond e kind enabled) := by
  obtain ⟨sent, due⟩ := scope.tells enabled
  unfold SceneM.setEnabled
  refine keeps_getBind fun w hw => ?_
  dsimp only
  split
  · exact keeps_pure _
  · rename_i index _
    exact keeps_bind (keeps_modify fun _ hv => hv.quiet (.enable e index enabled) rfl) fun _ =>
      responses.keeps (.hook e index _) sent (fun _ => due) acting

/-- The update of an actor is made of changes. -/
theorem led_updateActor (sent : ∀ dt, scope.hooks (.update dt)) (e : EntityId) (dt : K) :
    Keeps (scope.Led origin acting) (SceneM.updateActor respond e dt) := by
  unfold SceneM.updateActor
  refine keeps_bind (Steady.ownDelta (I := scope.Led origin) e dt acting) fun own => ?_
  cases own with
  | none => exact keeps_pure _
  | some dt =>
    refine keeps_bind (led_emit responses acting _) fun _ => ?_
    refine keeps_bind (Steady.places (I := scope.Led origin) e acting) fun indices => ?_
    exact led_dispatchWhileActive responses acting e (sent dt) indices

/-- The late update of an actor is made of changes. -/
theorem led_lateUpdateActor (sent : ∀ dt, scope.hooks (.lateUpdate dt)) (e : EntityId) (dt : K) :
    Keeps (scope.Led origin acting) (SceneM.lateUpdateActor respond e dt) := by
  unfold SceneM.lateUpdateActor
  refine keeps_bind (Steady.ownDelta (I := scope.Led origin) e dt acting) fun own => ?_
  cases own with
  | none => exact keeps_pure _
  | some dt =>
    refine keeps_bind (Steady.places (I := scope.Led origin) e acting) fun indices => ?_
    exact led_dispatchWhileActive responses acting e (sent dt) indices

/-- Applying a command is made of changes. -/
theorem led_applyCommand (command : Command K) :
    Keeps (scope.Led origin acting) (SceneM.applyCommand respond command) := by
  have onTarget : ∀ name (act : EntityId → SceneM K B Unit),
      (∀ e, Keeps (scope.Led origin acting) (act e)) →
      Keeps (scope.Led origin acting) (SceneM.onTarget command.target name act) := by
    intro name act hact
    unfold SceneM.onTarget
    split
    · exact hact _
    · exact led_record acting rfl
  have place : ∀ (placement : Placement K) (e : EntityId), Keeps (scope.Led origin acting)
      (modify fun w => w.place e placement : SceneM K B Unit) := fun placement e =>
    keeps_modify fun w hw => hw.quiet (.edit (.place e placement) (scope.place e placement))
      (World.stages_apply w (.place e placement))
  unfold SceneM.applyCommand
  dsimp only
  cases command.action with
  | setPosition v => exact onTarget _ _ (place (.position v))
  | setRotation q => exact onTarget _ _ (place (.rotation q))
  | setScale v => exact onTarget _ _ (place (.scale v))
  | setActive active =>
    cases command.target with
    | some e => exact led_setActive responses acting e active
    | none => exact keeps_pure _
  | destroy =>
    cases command.target with
    | some e =>
      exact keeps_modify fun w hw => hw.quiet (.edit (.destroy e) (scope.destroy e))
        (World.stages_apply w (.destroy e))
    | none => exact keeps_pure _

/-- Applying all commands that wait is made of changes. -/
theorem led_applyCommands :
    Keeps (scope.Led origin acting) (SceneM.applyCommands respond) := by
  unfold SceneM.applyCommands
  refine keeps_getBind fun w hw => ?_
  split
  · exact keeps_pure _
  · refine keeps_bind (keeps_modify fun _ hw => hw.quiet .dequeue rfl) fun _ => ?_
    exact keeps_forM fun command _ => led_applyCommand responses acting command

/-- The pass of updates is made of changes. -/
theorem led_updateActors (sent : ∀ dt, scope.hooks (.update dt)) :
    Keeps (scope.Led origin acting) (SceneM.updateActors respond) := by
  unfold SceneM.updateActors
  refine keeps_bind (Steady.frameDelta (I := scope.Led origin) acting) fun dt => ?_
  refine keeps_getBind fun w hw => ?_
  exact keeps_forM fun e _ => led_updateActor responses acting sent e dt

/-- The pass of late updates is made of changes. -/
theorem led_lateUpdateActors (sent : ∀ dt, scope.hooks (.lateUpdate dt)) :
    Keeps (scope.Led origin acting) (SceneM.lateUpdateActors respond) := by
  unfold SceneM.lateUpdateActors
  refine keeps_bind (Steady.frameDelta (I := scope.Led origin) acting) fun dt => ?_
  refine keeps_getBind fun w hw => ?_
  exact keeps_forM fun e _ => led_lateUpdateActor responses acting sent e dt

/-- The sweep is made of changes. -/
theorem led_sweep : Keeps (scope.Led origin acting) (SceneM.sweep respond) := by
  unfold SceneM.sweep
  refine keeps_getBind fun w hw => ?_
  refine keeps_forM fun doomed _ => ?_
  exact keeps_bind (led_emit responses acting _) fun _ =>
    keeps_modify fun w hw => hw.quiet (.reclaim doomed.1) (World.stages_reclaim w doomed.1)

/-- Requests other than running threads. -/
theorem led_performWithin {request : Request K B} (permitted : scope.Permits request) :
    Keeps (scope.Led origin acting) (SceneM.performWithin respond request) := by
  cases request with
  | ask query => exact keeps_getBind fun _ _ => keeps_pure _
  | edit x =>
    exact ensures_modifyGet fun w hw =>
      hw.quiet (.edit x (permitted.1 x rfl)) (World.stages_apply w x)
  | setActive e active => exact led_setActive responses acting e active
  | setEnabled e kind enabled => exact led_setEnabled responses acting e kind enabled
  | updateActor e dt =>
    exact led_updateActor responses acting (fun dt => (permitted.2 trivial dt).1) e dt
  | lateUpdateActor e dt =>
    exact led_lateUpdateActor responses acting (fun dt => (permitted.2 trivial dt).2) e dt
  | applyCommands => exact led_applyCommands responses acting
  | runThreads => exact keeps_pure _
  | updateActors =>
    exact led_updateActors responses acting fun dt => (permitted.2 trivial dt).1
  | lateUpdateActors =>
    exact led_lateUpdateActors responses acting fun dt => (permitted.2 trivial dt).2
  | sweep => exact led_sweep responses acting

end Responses

/-- Programs of the scope, where its requests are made of changes. -/
theorem led_program {perform : Performer K B} {acting : List (Acting K)}
    (performs : ∀ {request}, scope.requests request →
      Keeps (scope.Led origin acting) (perform request))
    {R : Type} {p : Program K B R} (fit : scope.fit R p) :
    Keeps (scope.Led origin acting) (p.run perform) := by
  induction p with
  | done r => exact keeps_pure r
  | perform request next ih =>
    exact keeps_bind (performs fit.1) fun answer => ih answer (fit.2 answer)
  | echo tag request next ih =>
    refine keeps_bind (performs fit.1) fun answer => ?_
    exact keeps_bind (led_record acting rfl) fun _ => ih answer (fit.2 answer)

variable (fitting : FitScheduler scope.fit origin.world)

section Scheduling

variable {respond : Impulse K → SceneM K B Unit} (responses : scope.Responsive origin respond)
  (acting : List (Acting K))

include responses in
/-- What threads do by calling host functions is made of changes. -/
theorem led_hostCall {table : HostTable (HostBody K B)} (fit : FitTable scope.fit table) :
    ∀ f ∈ table.functions, ∀ args,
      Keeps (scope.Led origin acting) ((SceneM.host respond).call f.body args) :=
  fun f hf args => led_program
    (fun h => led_performWithin responses acting (permits h)) (fit f hf args)

include fitting in
/-- What is done with the scheduler out of the scene is made of changes, if its work is. -/
theorem led_withScheduler {α : Type} {absent : α}
    {work : Scheduler (HostBody K B) → SceneM K B (α × Scheduler (HostBody K B))}
    (works : ∀ scheduler, FitTable scope.fit scheduler.table →
      Ensures (scope.Led origin acting) (work scheduler)
        fun r w => r.2.table = scheduler.table ∧ scope.Led origin acting w) :
    Keeps (scope.Led origin acting) (SceneM.withScheduler absent work) := by
  unfold SceneM.withScheduler
  refine keeps_getBind fun w hw => ?_
  split
  · exact keeps_pure _
  · rename_i scheduler hscheduler
    have fit := hw.leads.fitScheduler fitting scheduler hscheduler
    refine keeps_bind (keeps_modify fun _ hv => hv.quiet .lend rfl) fun _ => ?_
    refine ensures_bind (works scheduler fit) fun r => ?_
    refine ensures_bind (Q := fun _ => scope.Led origin acting) (ensures_modify fun v hv => ?_)
      fun _ => keeps_pure _
    exact hv.2.quiet (.restore (hv.1 ▸ fit)) rfl

include fitting responses in
/-- Performing any request that the scope permits is made of changes. -/
theorem led_performWith {request : Request K B} (permitted : scope.Permits request) :
    Keeps (scope.Led origin acting) (SceneM.performWith respond request) := by
  have others := led_performWithin responses acting permitted
  cases request with
  | runThreads =>
    refine led_withScheduler fitting acting fun scheduler fit => ?_
    have updated : Ensures (scope.Led origin acting) (scheduler.update (SceneM.host respond))
        fun s' w => s'.table = scheduler.table ∧ scope.Led origin acting w :=
      ensures_update (led_hostCall responses acting fit) fun _ w hw =>
        hw.quiet (.record rfl) (World.stages_record_aside w rfl)
    exact ensures_bind updated fun _ => ensures_pure fun _ hw => hw
  | _ => exact others

end Scheduling

variable (behaved : scope.Behaved)

include behaved in
/-- A component that has begun to act on a hook, whichever it is, and that is out of its slot. -/
theorem led_serve {perform : Performer K B}
    (performs : ∀ {request}, scope.requests request → ∀ acting,
      Keeps (scope.Led origin acting) (perform request))
    (rounds : Nat) (e : EntityId) (index : Nat) (component : Component K B) (hook : Hook K)
    (acting : List (Acting K)) :
    Ensures (fun w => scope.Led origin (⟨e, index, hook⟩ :: acting)
        (w.record (.hook e index .began hook)))
      (SceneM.serve perform rounds e index component hook)
      fun _ => scope.Led origin acting := by
  induction rounds generalizing component hook with
  | zero => exact ensures_throw _
  | succ rounds ih =>
    unfold SceneM.serve
    refine ensures_bind (Q := fun _ => scope.Led origin (⟨e, index, hook⟩ :: acting))
      (ensures_modify fun _ hw => hw) fun _ => ?_
    refine ensures_bind (led_program (fun h => performs h _) (behaved.react component e hook))
      fun component => ?_
    refine ensures_bind (Q := fun _ w => ∃ v, w = v.record (.hook e index .ended hook) ∧
      scope.Led origin (⟨e, index, hook⟩ :: acting) v)
      (ensures_modify fun v hv => ⟨v, rfl, hv⟩) fun _ => ?_
    refine ensures_getBind ?_
    rintro _ ⟨v, rfl, hv⟩
    split
    · rename_i hslot
      have stages := (World.stages_dropComponent _ component).trans
        (World.stages_record_hook v e index .ended hook)
      exact ensures_modify fun _ hs => hs ▸ hv.ending (.vanish component hslot) stages
    · rename_i slot hslot
      split
      · rename_i hdeferred
        have stages := World.stages_record_hook v e index .ended hook
        exact ensures_modify fun _ hs => hs ▸ hv.ending (.finish component hslot hdeferred) stages
      · rename_i next deferred hdeferred
        refine ensures_bind (ensures_modify fun _ hs => ?_) fun _ => ih component next
        exact hs ▸ hv.ending (.resume hslot hdeferred) (World.stages_resume v e index hook next _)

include fitting behaved in
/-- Whatever an impulse sets off is made of changes, to any depth. -/
theorem led_respond (depth : Nat) : scope.Responsive origin (SceneM.respond depth) := by
  induction depth with
  | zero => exact fun _ _ _ => ensures_throw _
  | succ depth ih =>
    intro impulse sent acting
    have performs : ∀ {request}, scope.requests request → ∀ acting,
        Keeps (scope.Led origin acting) (SceneM.performWith (SceneM.respond depth) request) :=
      fun h acting => led_performWith fitting ih acting (permits h)
    unfold SceneM.respond
    cases impulse with
    | event event =>
      have observed := led_program (fun h => performs h acting) (behaved.observe event)
      exact fun w hw => observed w hw.1
    | hook e index hook =>
      refine ensures_getBind fun w hw => ?_
      obtain ⟨hw, due⟩ := hw
      split
      · exact ensures_at hw (keeps_pure _)
      · rename_i slot hslot
        split
        · rename_i hout
          refine ensures_modify fun _ hs => ?_
          exact hs ▸ hw.asking (.putOff sent hslot hout) (World.stages_record_hook ..) due
        · rename_i component hcomponent
          refine ensures_bind (ensures_modify fun _ hs => ?_) fun _ =>
            led_serve behaved performs SceneM.hookLimit e index component hook acting
          exact hs ▸ hw.asking (.start sent hslot hcomponent) (World.stages_record_hook ..) due

include fitting behaved

/-- Requests to a scene are carried out by changes. -/
theorem led_perform (depth : Nat) {request : Request K B}
    (permitted : scope.Permits request) (acting : List (Acting K)) :
    Keeps (scope.Led origin acting) (SceneM.performWith (SceneM.respond depth) request) :=
  led_performWith fitting (led_respond fitting behaved depth) acting permitted

/-- A frame is made of changes. -/
theorem led_frame (sent : ∀ dt, scope.hooks (.update dt) ∧ scope.hooks (.lateUpdate dt))
    (dt : K) (acting : List (Acting K)) :
    Keeps (scope.Led origin acting) (SceneM.frame dt) := by
  have performs : ∀ request : Request K B, (∀ x, request = .edit x → scope.requests request) →
      Keeps (scope.Led origin acting) (SceneM.perform request) := fun request edits =>
    led_perform fitting behaved _ ⟨edits, fun _ => sent⟩ acting
  refine keeps_bind (performs (.edit (.tick dt)) fun _ _ => scope.tick dt) fun _ => ?_
  refine keeps_bind (performs .applyCommands nofun) fun _ => ?_
  refine keeps_bind (performs .runThreads nofun) fun _ => ?_
  refine keeps_bind (performs .updateActors nofun) fun _ => ?_
  refine keeps_bind (performs .lateUpdateActors nofun) fun _ => ?_
  exact performs .sweep nofun

/-- Starting a thread is made of changes. -/
theorem led_startThread (script : Script) (function : String) (acting : List (Acting K)) :
    Keeps (scope.Led origin acting) (SceneM.startThread script function) := by
  refine led_withScheduler fitting acting fun scheduler fit => ?_
  have started : Ensures (scope.Led origin acting)
      (scheduler.start (SceneM.host (SceneM.respond SceneM.hookLimit)) script function)
      fun r w => r.2.table = scheduler.table ∧ scope.Led origin acting w :=
    ensures_start (led_hostCall (led_respond fitting behaved _) acting fit)
      (fun _ w hw => hw.quiet (.record rfl) (World.stages_record_aside w rfl)) script function
  exact ensures_bind started fun _ => ensures_pure fun _ hw => hw

/-- Evaluating a function is made of changes. -/
theorem led_evaluate (script : Script) (function : String) (acting : List (Acting K)) :
    Keeps (scope.Led origin acting) (SceneM.evaluate script function) := by
  refine led_withScheduler fitting acting fun scheduler fit => ?_
  have evaluated : Keeps (scope.Led origin acting)
      (scheduler.evaluate (SceneM.host (SceneM.respond SceneM.hookLimit)) script function) :=
    keeps_evaluate (led_hostCall (led_respond fitting behaved _) acting fit)
      (fun _ w hw => hw.quiet (.record rfl) (World.stages_record_aside w rfl)) script function
  exact ensures_bind evaluated fun _ => ensures_pure fun _ hw => ⟨rfl, hw⟩

end Runs

section Impulses

variable [Scalar K] [Behavior K B] {scope : Scope K B} (behaved : scope.Behaved)
  {w w' : World K B} {depth : Nat}
include behaved

/-- From the moment at which a component has begun to act on a hook, whichever it is, all changes
are changes that scenes make. -/
theorem steps_served (fitting : FitScheduler scope.fit w) {e : EntityId} {index : Nat}
    {slot : Slot K B} {component : Component K B} {hook : Hook K}
    (hslot : w.slot? e index = some slot) (hcomponent : slot.component = some component)
    (hrun : SceneM.respond (depth + 1) (.hook e index hook) w = .ok () w')
    (acting : List (Acting K)) :
    scope.Steps ⟨⟨e, index, hook⟩ :: acting, (w.modifySlot e index fun slot =>
      { slot with component := none }).record (.hook e index .began hook)⟩ ⟨acting, w'⟩ := by
  unfold SceneM.respond at hrun
  obtain ⟨_, _, hget, hrun⟩ := bind_ok hrun
  cases hget
  simp only [hslot, hcomponent] at hrun
  obtain ⟨_, _, hmodify, hserve⟩ := bind_ok hrun
  cases hmodify
  let out := w.modifySlot e index fun slot => { slot with component := none }
  let begun : Instant K B := ⟨⟨e, index, hook⟩ :: acting, out.record (.hook e index .began hook)⟩
  have fitting : FitScheduler scope.fit begun.world := fitting
  have performs : ∀ {request}, scope.requests request → ∀ acting,
      Keeps (scope.Led begun acting) (SceneM.performWith (SceneM.respond depth) request) :=
    fun h acting => led_perform fitting behaved depth (permits h) acting
  exact led_serve behaved performs SceneM.hookLimit e index component hook acting out .refl () w'
    hserve

/-- Whatever an impulse sets off is made of changes, also where it is not due. -/
theorem leads_respond (fitting : FitScheduler scope.fit w) {impulse : Impulse K}
    (hrun : SceneM.respond depth impulse w = .ok () w') (sent : scope.Sends impulse)
    (acting : List (Acting K)) :
    scope.Leads ⟨acting, w⟩ ⟨acting, w'⟩ := by
  cases impulse with
  | event event =>
    have responses : scope.Responsive ⟨acting, w⟩ (SceneM.respond depth) :=
      led_respond fitting behaved depth
    exact (responses (.event event) trivial acting w ⟨.refl, trivial⟩ () w' hrun).leads
  | hook e index hook =>
    cases depth with
    | zero => cases hrun
    | succ depth =>
      cases hslot : w.slot? e index with
      | none =>
        unfold SceneM.respond at hrun
        obtain ⟨_, _, hget, hrun⟩ := bind_ok hrun
        cases hget
        simp only [hslot] at hrun
        cases hrun
        exact .refl
      | some slot =>
        cases hcomponent : slot.component with
        | none =>
          unfold SceneM.respond at hrun
          obtain ⟨_, _, hget, hrun⟩ := bind_ok hrun
          cases hget
          simp only [hslot, hcomponent] at hrun
          cases hrun
          exact .single (.putOff sent hslot hcomponent)
        | some component =>
          exact .head (.start sent hslot hcomponent)
            (steps_served behaved fitting hslot hcomponent hrun acting).leads

end Impulses

end Scope

section Scenes

variable [Scalar K] [Behavior K B] {scope : Scope K B} {w w' : World K B}
  (behaved : scope.Behaved)
  (sent : ∀ dt, scope.hooks (.update dt) ∧ scope.hooks (.lateUpdate dt))
include behaved sent

/-- Whatever can happen to a scene is made of changes that scenes make. -/
theorem SceneStep.steps (fitting : FitScheduler scope.fit w) (step : SceneStep scope.fit w w') :
    scope.Steps ⟨[], w⟩ ⟨[], w'⟩ := by
  have here : scope.Led ⟨[], w⟩ [] w := .refl
  cases step with
  | program fit hrun =>
    have performs : ∀ {request : Request K B}, scope.requests request →
        Keeps (scope.Led ⟨[], w⟩ []) (SceneM.perform request) := fun h =>
      Scope.led_perform fitting behaved _ (Scope.permits h) []
    exact Scope.led_program performs fit _ here _ _ hrun
  | frame hrun => exact Scope.led_frame fitting behaved sent _ [] _ here _ _ hrun
  | startThread hrun => exact Scope.led_startThread fitting behaved _ _ [] _ here _ _ hrun
  | evaluate hrun => exact Scope.led_evaluate fitting behaved _ _ [] _ here _ _ hrun
  | install fit => exact here.quiet (.restore fit) rfl

/-- A step of a scene is made of changes. -/
theorem SceneStep.leads (fitting : FitScheduler scope.fit w) (step : SceneStep scope.fit w w') :
    scope.Leads ⟨[], w⟩ ⟨[], w'⟩ :=
  (step.steps behaved sent fitting).leads

/-- A scene that comes about from an empty one is led to from there. -/
theorem Reachable.exists_leads (h : Reachable scope.fit w) :
    ∃ w₀ : World K B, w₀.entities = #[] ∧ w₀.actors = [] ∧ w₀.scheduler = none ∧
      scope.Leads ⟨[], w₀⟩ ⟨[], w⟩ := by
  induction h with
  | @empty w entities actors _ scheduler => exact ⟨w, entities, actors, scheduler, .refl⟩
  | @step w w' _ step ih =>
    obtain ⟨w₀, entities, actors, scheduler, leads⟩ := ih
    have fitting : FitScheduler scope.fit w₀ := by
      intro s hs
      rw [scheduler] at hs
      cases hs
    exact ⟨w₀, entities, actors, scheduler,
      leads.trans (step.leads behaved sent (leads.fitScheduler fitting))⟩

/-- In a scene that comes about from an empty one, the scheduler has host functions of the scope. -/
theorem Reachable.fitScheduler (h : Reachable scope.fit w) : FitScheduler scope.fit w := by
  obtain ⟨w₀, -, -, scheduler, leads⟩ := h.exists_leads behaved sent
  apply leads.fitScheduler
  intro s hs
  rw [scheduler] at hs
  cases hs

/-- What holds of empty scenes, and what no change breaks, holds of every scene. -/
theorem Reachable.changes {I : Instant K B → Prop} (h : Reachable scope.fit w)
    (empty : ∀ w : World K B, w.entities = #[] → w.actors = [] → I ⟨[], w⟩)
    (step : ∀ {x y}, Change scope x y → I x → I y) : I ⟨[], w⟩ := by
  obtain ⟨w₀, entities, actors, -, leads⟩ := h.exists_leads behaved sent
  exact leads.keeps step (empty w₀ entities actors)

end Scenes

/-! ## Any programs, and tidy ones -/

/-- Programs may make any request. -/
def Scope.everything (K B : Type) : Scope K B where
  requests _ := True
  hooks _ := True
  destroy _ := trivial
  place _ _ := trivial
  tick _ := trivial
  enable := trivial
  disable := trivial
  updates _ _ _ _ := ⟨trivial, trivial⟩

/-- Where every request is allowed, every program fits. -/
theorem Scope.fit_everything {R : Type} (p : Program K B R) :
    (Scope.everything K B).fit R p := by
  induction p with
  | done _ => trivial
  | perform _ _ ih | echo _ _ _ ih => exact ⟨trivial, ih⟩

/-- Where every request is allowed, every scheduler fits. -/
theorem Scope.fitScheduler_everything (w : World K B) :
    FitScheduler (Scope.everything K B).fit w :=
  fun _ _ _ _ _ => fit_everything _

/-- Where every request is allowed, all components and observers behave. -/
theorem Scope.behaved_everything [Scalar K] [Behavior K B] :
    (Scope.everything K B).Behaved :=
  ⟨fun _ _ _ => fit_everything _, fun _ => fit_everything _⟩

/-- Programs that are tidy. -/
def Scope.tidy (K B : Type) : Scope K B where
  requests := Request.Tidy
  hooks _ := True
  destroy _ := trivial
  place _ _ := trivial
  tick _ := trivial
  enable := trivial
  disable := trivial
  updates _ _ _ _ := ⟨trivial, trivial⟩

/-- Tidy components and observers keep to the requests of tidy programs. -/
theorem TidyBehavior.behaved [Scalar K] [Behavior K B] (h : TidyBehavior K B) :
    (Scope.tidy K B).Behaved :=
  ⟨h.tidy_react, h.observe⟩

end SheepScene
