import SheepScene.Proofs.Scene.Ancestry
import SheepScene.Proofs.Scene.Reentrancy

/-!
# Moments between hooks

A frame is long. Threads call host functions in the middle of it, while the scheduler is lent to
them, and the components of an actor are visited one after the other. The moments of a scene are all
those at which no component is executing, the middle of a frame included: a `Turn` leads from one to
the next.

What lasts holds at every moment (`Lasting.moment`), and so does what no elementary change breaks:
components are in their slots and no hook waits (`AtMoment.rested`), and every actor has its
components (`AtMoment.equipped`).
-/

set_option autoImplicit false

namespace SheepScene

variable {K B : Type} [Scalar K] [Behavior K B]

/-- What happens between two moments at which no component is executing. -/
inductive Turn (fit : Fitness K B) : World K B → World K B → Prop where
  | step {w w'} : SceneStep fit w w' → Turn fit w w'
  /-- The scheduler goes to work, and is missing from the scene until it is put back. -/
  | lend {w} : Turn fit w { w with scheduler := none }
  /-- A program runs while the scheduler is at work, such as a host function that a thread calls. -/
  | call {w w' R} {p : Program K B R} {result} : fit R p →
      p.run (SceneM.performWithin (SceneM.respond SceneM.hookLimit)) w = .ok result w' →
      Turn fit w w'
  /-- Something other than a stage of a hook or a switch is written into the journal. -/
  | note {w event} : event.Aside → event.stage? = none → Turn fit w (w.record event)
  | observe {w w' event} :
      SceneM.respond SceneM.hookLimit (.event event) w = .ok () w' → Turn fit w w'
  /-- Components at some places of an actor are told of an update. -/
  | visit {w w' e hook indices} : hook.Updates →
      SceneM.dispatchWhileActive (SceneM.respond SceneM.hookLimit) e hook indices w = .ok () w' →
      Turn fit w w'

/-- One moment leads to another one by turns. -/
def Onward (fit : Fitness K B) : World K B → World K B → Prop :=
  Relation.ReflTransGen (Turn fit)

/-- A scene that comes about from an empty one, at a moment when no component is executing. -/
def AtMoment (fit : Fitness K B) (w : World K B) : Prop :=
  ∃ v, Reachable fit v ∧ Onward fit v w

section Moments

variable {fit fit' : Fitness K B} {w w' : World K B}

/-! ## More programs -/

/-- A step with some programs is a step with more of them. -/
theorem SceneStep.mono (more : ∀ R (p : Program K B R), fit R p → fit' R p)
    (h : SceneStep fit w w') : SceneStep fit' w w' := by
  cases h with
  | program hfit hrun => exact .program (more _ _ hfit) hrun
  | frame hrun => exact .frame hrun
  | startThread hrun => exact .startThread hrun
  | evaluate hrun => exact .evaluate hrun
  | install hfit => exact .install fun f hf args => more _ _ (hfit f hf args)

/-- A scene that comes about with some programs comes about with more of them. -/
theorem Reachable.mono (more : ∀ R (p : Program K B R), fit R p → fit' R p)
    (h : Reachable fit w) : Reachable fit' w := by
  induction h with
  | empty entities actors waits scheduler => exact .empty entities actors waits scheduler
  | step _ hstep ih => exact .step ih (hstep.mono more)

/-- A turn with some programs is a turn with more of them. -/
theorem Turn.mono (more : ∀ R (p : Program K B R), fit R p → fit' R p) (h : Turn fit w w') :
    Turn fit' w w' := by
  cases h with
  | step hstep => exact .step (hstep.mono more)
  | lend => exact .lend
  | call hfit hrun => exact .call (more _ _ hfit) hrun
  | note aside stage => exact .note aside stage
  | observe hrun => exact .observe hrun
  | visit updates hrun => exact .visit updates hrun

/-- A run of turns with some programs is one with more of them. -/
theorem Onward.mono (more : ∀ R (p : Program K B R), fit R p → fit' R p) (h : Onward fit w w') :
    Onward fit' w w' :=
  Relation.ReflTransGen.mono (fun _ _ => Turn.mono more) _ _ h

/-- A moment with some programs is a moment with more of them. -/
theorem AtMoment.mono (more : ∀ R (p : Program K B R), fit R p → fit' R p) (h : AtMoment fit w) :
    AtMoment fit' w := by
  obtain ⟨v, hv, onward⟩ := h
  exact ⟨v, hv.mono more, onward.mono more⟩

/-- Every moment is one that comes about with any programs. -/
theorem AtMoment.everything (h : AtMoment fit w) : AtMoment (Scope.everything K B).fit w :=
  h.mono fun _ p _ => Scope.fit_everything p

/-- A scene between steps is at a moment. -/
theorem Reachable.moment (h : Reachable fit w) : AtMoment fit w :=
  ⟨w, h, .refl⟩

/-- From a moment on, turns lead to moments. -/
theorem AtMoment.onward (h : AtMoment fit w) (onward : Onward fit w w') : AtMoment fit w' := by
  obtain ⟨v, hv, before⟩ := h
  exact ⟨v, hv, before.trans onward⟩

/-- Every host function that a thread calls in an update is called at a moment. -/
theorem AtMoment.ensures_update {scheduler : Scheduler (HostBody K B)}
    (fitting : FitTable fit scheduler.table) :
    Ensures (AtMoment fit) (scheduler.update (SceneM.host (SceneM.respond SceneM.hookLimit)))
      fun after w => after.table = scheduler.table ∧ AtMoment fit w := by
  refine SheepScene.ensures_update (fun f hf args w hw answer w' hrun => ?_) fun message w hw => ?_
  · exact hw.onward (.single (.call (fitting f hf args) hrun))
  · exact hw.onward (.single (.note trivial rfl))

/-! ## What lasts -/

section Lasting

variable {C : Type} {served : Performer K B → Prop} {I : C → World K B → Prop} {c : C}
  (lasting : Lasting fit served I)
include lasting

/-- What lasts is kept by a turn. -/
theorem Lasting.turn (turn : Turn fit w w') (h : I c w) : I c w' := by
  cases turn with
  | step hstep => exact lasting.step hstep h
  | lend => exact lasting.steady.lend h
  | call hfit hrun => exact lasting.steady.program lasting.within hfit c _ h _ _ hrun
  | note aside _ => exact lasting.steady.record _ aside h
  | observe hrun => exact lasting.responds.event _ c _ h _ _ hrun
  | visit updates hrun => exact lasting.responds.visit _ _ updates _ c _ h _ _ hrun

/-- What lasts is kept by any number of turns. -/
theorem Lasting.onward (onward : Onward fit w w') (h : I c w) : I c w' := by
  induction onward with
  | refl => exact h
  | tail _ turn ih => exact lasting.turn turn ih

/-- What lasts holds at every moment. -/
theorem Lasting.moment
    (empty : ∀ w : World K B, w.entities = #[] → w.actors = [] → w.waits = .none →
      w.scheduler = none → I c w) (h : AtMoment fit w) : I c w := by
  obtain ⟨v, hv, onward⟩ := h
  exact lasting.onward onward (lasting.reachable empty hv)

end Lasting

/-! ## What no change breaks -/

/-- A turn is made of elementary changes. -/
theorem Turn.leads (turn : Turn fit w w') :
    (Scope.everything K B).Leads ⟨[], w⟩ ⟨[], w'⟩ := by
  have here : (Scope.everything K B).Led ⟨[], w⟩ [] w := .refl
  have fitting := Scope.fitScheduler_everything w
  have responses : (Scope.everything K B).Responsive ⟨[], w⟩ (SceneM.respond SceneM.hookLimit) :=
    Scope.led_respond fitting Scope.behaved_everything SceneM.hookLimit
  cases turn with
  | step hstep =>
    exact (hstep.mono fun _ p _ => Scope.fit_everything p).leads Scope.behaved_everything
      (fun _ => ⟨trivial, trivial⟩) fitting
  | lend => exact .single .lend
  | call _ hrun =>
    have performs : ∀ {request}, (Scope.everything K B).requests request →
        Keeps ((Scope.everything K B).Led ⟨[], w⟩ [])
          (SceneM.performWithin (SceneM.respond SceneM.hookLimit) request) := fun h =>
      Scope.led_performWithin responses [] (Scope.permits h)
    exact (Scope.led_program performs (Scope.fit_everything _) _ here _ _ hrun).leads
  | note _ stage => exact .single (.record stage)
  | observe hrun => exact Scope.leads_respond Scope.behaved_everything fitting hrun trivial []
  | visit _ hrun =>
    exact (Scope.led_dispatchWhileActive responses [] _ trivial _ _ here _ _ hrun).leads

/-- Turns are made of changes. -/
theorem Onward.leads (onward : Onward fit w w') :
    (Scope.everything K B).Leads ⟨[], w⟩ ⟨[], w'⟩ := by
  induction onward with
  | refl => exact .refl
  | tail _ turn ih => exact ih.trans turn.leads

/-- What turns lead to comes later. -/
theorem Onward.precedes (onward : Onward fit w w') : w.Precedes w' :=
  onward.leads.precedes

/-- A scene is at rest at every moment. -/
theorem AtMoment.rested (h : AtMoment fit w) : w.Rested := by
  obtain ⟨v, hv, onward⟩ := h
  have rested := (hv.mono fun _ p _ => Scope.fit_everything p).rested
  exact (onward.leads.keeps Change.inService (.rested rested)).world_rested

end Moments

/-! ## Actors and their components -/

namespace World

omit [Scalar K] [Behavior K B]

/-- Every actor has a list of components. -/
def Equipped (w : World K B) : Prop :=
  ∀ e, (w.actor? e).isSome → (w.slots? e).isSome

namespace Equipped

variable {w w' : World K B}

/-- Actors stay equipped as long as nobody's actor or components come or go. -/
theorem same (h : w.Equipped) (actors : ∀ e, (w'.actor? e).isSome = (w.actor? e).isSome)
    (slots : ∀ e, (w'.slots? e).isSome = (w.slots? e).isSome) : w'.Equipped := fun e he =>
  (slots e).trans (h e ((actors e).symm.trans he))

/-- Actors stay equipped as long as the slots are the same. -/
theorem sameSlots (h : w.Equipped) (same : SameSlots w w') : w'.Equipped :=
  h.same same.actors fun e => by rw [same.slots]

/-- Changing slots leaves all actors equipped. -/
theorem modifySlots (h : w.Equipped) (e : EntityId) (f : Array (Slot K B) → Array (Slot K B)) :
    (w.modifySlots e f).Equipped :=
  h.same (fun x => by rw [actor?_modifySlots]) (isSome_slots?_modifySlots w e · f)

/-- Creating an entity that is equipped leaves all actors equipped. -/
theorem create (h : w.Equipped) {entity : Entity K B}
    (equipped : entity.actor.isSome → entity.slots.isSome) : (w.create entity).2.Equipped := by
  intro e he
  rw [actor?, entity?_create] at he
  rw [slots?, entity?_create]
  split at he
  · rename_i new
    rw [if_pos new]
    exact equipped he
  · rename_i old
    rw [if_neg old]
    exact h e he

/-- Spawning an actor leaves all actors equipped. -/
theorem spawn (h : w.Equipped) (spec : ActorSpec K) : (w.spawn spec).2.Equipped := by
  unfold World.spawn
  dsimp only
  have created : ∀ {entity : Entity K B}, entity.slots = some #[] →
      ({ (w.create entity).2 with
        roster := some ((w.create entity).2.actors ++ [(w.create entity).1]) } :
          World K B).Equipped := fun hslots =>
    (h.create fun _ => by rw [hslots, Option.isSome_some]).sameSlots (.of_entities rfl (.refl _))
  split
  · exact (created rfl).sameSlots (.of_onlyPlaces (onlyPlaces_setParent _ _ _))
  · exact created rfl

/-- Despawning leaves all actors equipped. -/
theorem despawn (h : w.Equipped) (e : EntityId) : (w.despawn e).2.Equipped := by
  intro x hx
  rw [actor?, entity?_despawn] at hx
  rw [slots?, entity?_despawn]
  split at hx
  · cases hx
  · rename_i other
    rw [if_neg other]
    exact h x hx

variable [Scalar K] [Behavior K B]

/-- Every edit of a program leaves all actors equipped. -/
theorem apply (h : w.Equipped) (x : Edit K B) : (w.apply x).2.Equipped := by
  cases x with
  | spawn spec => exact h.spawn spec
  | spawnTransform position rotation scale => exact h.create fun actor => nomatch actor
  | spawnBare => exact h.create fun actor => nomatch actor
  | despawn e => exact h.despawn e
  | add e component =>
    change (w.addComponent e component).2.Equipped
    unfold addComponent
    split
    · exact h.modifySlots _ _
    · exact (h.sameSlots (.of_onlyPlaces (AgreesOn.record w _))).sameSlots (.dropComponent _ _)
  | retarget e target duration done =>
    change (w.retarget e target duration done).2.Equipped
    rcases w.retarget_cases e target duration done with same | ⟨index, m, -, -, moved⟩
    · rw [same]
      exact h
    · rw [moved]
      exact (h.sameSlots (.dropComponent w _)).modifySlots _ _
  | issueWait => exact h.same (fun _ => rfl) fun _ => rfl
  | _ =>
    refine h.sameSlots (SameSlots.apply w ?_)
    trivial

end Equipped

end World

/-- No change takes the list of components from an actor. -/
theorem Change.equipped {scope : Scope K B} {x y : Instant K B} (change : Change scope x y)
    (h : x.world.Equipped) : y.world.Equipped := by
  have record : ∀ {w : World K B}, w.Equipped → ∀ event, (w.record event).Equipped :=
    fun hw event => hw.same (fun _ => rfl) fun _ => rfl
  cases change with
  | edit x _ => exact h.apply x
  | record _ => exact record h _
  | dequeue | lend | restore _ => exact h.same (fun _ => rfl) fun _ => rfl
  | reclaim e =>
    have detached := h.sameSlots (.of_onlyPlaces (World.onlyPlaces_detach _ e))
    exact (detached.despawn e).same (fun _ => rfl) fun _ => rfl
  | switch =>
    have switched := World.SameCells.modifyActor (K := K) (B := B)
    exact h.same (switched _ _ _).actors (switched _ _ _).slots
  | enable => exact h.modifySlots _ _
  | putOff | start => exact record (h.modifySlots _ _) _
  | resume => exact record ((record h _).modifySlots _ _) _
  | finish => exact (record h _).modifySlots _ _
  | vanish component => exact (record h _).sameSlots (.dropComponent _ component)

section Moments

variable {fit : Fitness K B} {w : World K B}

/-- At every moment all actors are equipped. -/
theorem AtMoment.equipped (h : AtMoment fit w) : w.Equipped := by
  have empty : ∀ w : World K B, w.entities = #[] → w.Equipped := by
    intro w entities e he
    unfold World.actor? World.entity? at he
    simp [entities] at he
  obtain ⟨v, hv, onward⟩ := h
  have before : v.Equipped :=
    (hv.mono fun _ p _ => Scope.fit_everything p).changes Scope.behaved_everything
      (fun _ => ⟨trivial, trivial⟩) (I := fun y => y.world.Equipped)
      (fun w entities _ => empty w entities) Change.equipped
  exact onward.leads.keeps Change.equipped before

/-- Lineages are traceable at every moment, and actors have a place. -/
theorem AtMoment.traceable (h : AtMoment fit w) : w.Traceable := by
  obtain ⟨v, hv, onward⟩ := h
  have before := (hv.mono fun _ p _ => Scope.fit_everything p).traceable
    Scope.behaved_everything fun _ => ⟨trivial, trivial⟩
  exact onward.leads.keeps Change.traceable before

end Moments

/-! ## Instants -/

/-- A scene that comes about from an empty one, at any instant, the middle of a hook included. -/
def AtInstant (w : World K B) : Prop :=
  ∃ w₀ acting, Reachable (Scope.everything K B).fit w₀ ∧
    (Scope.everything K B).Leads ⟨[], w₀⟩ ⟨acting, w⟩

section Instants

variable {fit : Fitness K B} {w : World K B}

/-- A moment is an instant at which nobody acts. -/
theorem AtMoment.instant (h : AtMoment fit w) : AtInstant w := by
  obtain ⟨v, hv, onward⟩ := h.everything
  exact ⟨v, [], hv, onward.leads⟩

/-- What holds of empty scenes, and what no change breaks, holds at every instant. -/
theorem AtInstant.keeps {I : World K B → Prop} (h : AtInstant w)
    (empty : ∀ w : World K B, w.entities = #[] → w.actors = [] → I w)
    (step : ∀ {x y}, Change (Scope.everything K B) x y → I x.world → I y.world) : I w := by
  obtain ⟨w₀, acting, hw₀, leads⟩ := h
  have before := hw₀.changes Scope.behaved_everything (fun _ => ⟨trivial, trivial⟩)
    (I := fun y => I y.world) empty step
  exact Scope.Leads.keeps (I := fun y => I y.world) step leads before

/-- After any edit there is another instant. -/
theorem AtInstant.edit (h : AtInstant w) (x : Edit K B) : AtInstant (w.apply x).2 := by
  obtain ⟨w₀, acting, hw₀, leads⟩ := h
  exact ⟨w₀, acting, hw₀, leads.tail (.edit x trivial)⟩

/-- At every instant the links can be traced. -/
theorem AtInstant.traceable (h : AtInstant w) : w.Traceable :=
  h.keeps (fun _ entities _ => .of_empty entities) Change.traceable

end Instants

end SheepScene
