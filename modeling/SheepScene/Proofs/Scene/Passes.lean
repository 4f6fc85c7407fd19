import SheepScene.Proofs.Scene.Updates

/-!
# The two passes of a frame

A pass reaches the actors that are listed when it begins, one after another, and looks at the
components that an actor has then, one after another. What it finds at these moments decides which
updates it sends, and hooks may change it until the last moment. To speak of the moments, the passes
are repeated with a log of them (`Pass.toured`, `SceneM.touredFrame`); logging changes nothing
(`SceneM.frame_eq_touredFrame`).

Every pass of a scene at rest sends what its log says and nothing else (`Sends`). The log itself
follows the list of actors and the places of their components, so that the updates of a frame are
sent in order, and none is sent twice (`frames_update_in_order`).
-/

set_option autoImplicit false

namespace SheepScene

variable {K B : Type}

/-- The two passes of a frame. -/
inductive Pass where
  | update
  | lateUpdate

/-- A moment at which a pass looks at a component. -/
structure Look (K B : Type) where
  index : Nat
  world : World K B

/-- The part of a pass that concerns one actor: the world when the actor is reached, and the looks
at its components. -/
structure Visit (K B : Type) where
  actor : EntityId
  world : World K B
  looks : List (Look K B)

/-- The log of a pass: the world when it begins, and the visits. -/
structure Tour (K B : Type) where
  world : World K B
  visits : List (Visit K B)

/-- An update that a pass sends, and the world at that moment. -/
structure Dispatch (K B : Type) where
  target : Acting K
  world : World K B

/-! ## Passes with a log -/

namespace World

/-- The delta of the current frame. -/
def frameDelta [Scalar K] (w : World K B) : K :=
  match w.clock with
  | some c => c.delta
  | none => 0

/-- How much time passes for an actor that takes part in an update. -/
def ownDelta? [Scalar K] (w : World K B) (e : EntityId) (dt : K) : Option K :=
  (w.actor? e).bind fun a =>
    if a.updateEnabled && w.isActive e then some (dt * a.timeScale) else none

end World

namespace SceneM

/-- Sends a hook as `dispatchWhileActive` does, with the looks at the components. -/
def lookedAt (respond : Impulse K → SceneM K B Unit) (e : EntityId) (hook : Hook K) :
    List Nat → SceneM K B (List (Look K B))
  | [] => pure []
  | index :: rest => do
    let w ← get
    if w.isActive e then
      dispatch respond e hook index
      let looks ← lookedAt respond e hook rest
      return ⟨index, w⟩ :: looks
    else return [⟨index, w⟩]

end SceneM

namespace Pass

variable [Scalar K]

/-- The hook that a pass sends. -/
def hook : Pass → K → Hook K
  | update, dt => .update dt
  | lateUpdate, dt => .lateUpdate dt

variable (pass : Pass) (respond : Impulse K → SceneM K B Unit)

/-- What a pass does to one actor. -/
def reach (e : EntityId) (dt : K) : SceneM K B Unit :=
  match pass with
  | update => SceneM.updateActor respond e dt
  | lateUpdate => SceneM.lateUpdateActor respond e dt

/-- What a pass does. -/
def run : SceneM K B Unit :=
  match pass with
  | update => SceneM.updateActors respond
  | lateUpdate => SceneM.lateUpdateActors respond

/-- The first pass lets it be observed that an actor is updated. -/
def announce (e : EntityId) (dt : K) : SceneM K B Unit :=
  match pass with
  | update => SceneM.emit respond (.updated e dt)
  | lateUpdate => pure ()

/-- A pass over one actor, with its log. -/
def visited (e : EntityId) (dt : K) : SceneM K B (Visit K B) := do
  let w ← get
  match w.ownDelta? e dt with
  | none => return ⟨e, w, []⟩
  | some own =>
    announce pass respond e own
    let indices ← SceneM.places e
    let looks ← SceneM.lookedAt respond e (pass.hook own) indices
    return ⟨e, w, looks⟩

/-- A pass over several actors, with its log. -/
def visitedAll (dt : K) : List EntityId → SceneM K B (List (Visit K B))
  | [] => pure []
  | e :: rest => do
    let visit ← visited pass respond e dt
    let visits ← visitedAll dt rest
    return visit :: visits

/-- A pass with its log. -/
def toured : SceneM K B (Tour K B) := do
  let w ← get
  let visits ← visitedAll pass respond w.frameDelta w.actors
  return ⟨w, visits⟩

end Pass

namespace SceneM

variable [Scalar K]

/-- A frame with the logs of its passes. -/
def touredFrame [Behavior K B] (dt : K) : SceneM K B (Tour K B × Tour K B) := do
  let () ← perform (.edit (.tick dt))
  let () ← perform .applyCommands
  let () ← perform .runThreads
  let updates ← Pass.update.toured (respond hookLimit)
  let lates ← Pass.lateUpdate.toured (respond hookLimit)
  let () ← perform .sweep
  return (updates, lates)

section Logs

variable (respond : Impulse K → SceneM K B Unit)

omit [Scalar K] in
/-- Sending a hook to the components of an actor is the logged sending without its log. -/
theorem dispatchWhileActive_eq (e : EntityId) (hook : Hook K) (indices : List Nat) :
    dispatchWhileActive respond e hook indices
      = (fun _ => ()) <$> lookedAt respond e hook indices := by
  induction indices with
  | nil => rfl
  | cons index rest ih =>
    unfold dispatchWhileActive lookedAt
    rw [map_bind]
    congr 1
    funext w
    split
    · simp [map_bind, ih]
    · simp

end Logs

end SceneM

namespace Pass

variable [Scalar K] (pass : Pass) (respond : Impulse K → SceneM K B Unit)

/-- Reaching an actor is the logged visit without its log. -/
theorem reach_eq (e : EntityId) (dt : K) :
    reach pass respond e dt = (fun _ => ()) <$> visited pass respond e dt := by
  have steps : reach pass respond e dt = (do
      let w : World K B ← get
      match w.ownDelta? e dt with
      | none => pure ()
      | some own =>
        announce pass respond e own
        let indices ← SceneM.places e
        SceneM.dispatchWhileActive respond e (pass.hook own) indices) := by
    cases pass <;> rfl
  unfold visited
  rw [steps, map_bind]
  congr 1
  funext w
  cases w.ownDelta? e dt with
  | none => rfl
  | some own => simp [SceneM.dispatchWhileActive_eq]

/-- Reaching several actors is the logged visits without their logs. -/
theorem reachAll_eq (dt : K) (actors : List EntityId) :
    (actors.forM fun e => reach pass respond e dt)
      = (fun _ => ()) <$> visitedAll pass respond dt actors := by
  induction actors with
  | nil => rfl
  | cons e rest ih =>
    change (reach pass respond e dt >>= fun _ => rest.forM fun e => reach pass respond e dt) = _
    rw [ih, reach_eq]
    simp [visitedAll]

/-- A pass is the logged pass without its log. -/
theorem run_eq : run pass respond = (fun _ => ()) <$> toured pass respond := by
  have steps : run pass respond = (do
      let w : World K B ← get
      w.actors.forM fun e => reach pass respond e w.frameDelta) := by
    have delta : (SceneM.frameDelta : SceneM K B K) = do return (← get).frameDelta := by
      unfold SceneM.frameDelta World.frameDelta
      congr 1
      funext w
      cases w.clock <;> rfl
    cases pass
    · change SceneM.updateActors respond = _
      unfold SceneM.updateActors
      rw [delta]
      rfl
    · change SceneM.lateUpdateActors respond = _
      unfold SceneM.lateUpdateActors
      rw [delta]
      rfl
  unfold toured
  rw [steps, map_bind]
  congr 1
  funext w
  rw [reachAll_eq]
  simp

end Pass

/-- The log of a frame leaves the frame as it is. -/
theorem SceneM.frame_eq_touredFrame [Scalar K] [Behavior K B] (dt : K) :
    (SceneM.frame dt : SceneM K B Unit) = (fun _ => ()) <$> touredFrame dt := by
  have updated : (perform .updateActors : SceneM K B Unit)
      = (fun _ => ()) <$> Pass.update.toured (respond hookLimit) := Pass.run_eq .update _
  have lateUpdated : (perform .lateUpdateActors : SceneM K B Unit)
      = (fun _ => ()) <$> Pass.lateUpdate.toured (respond hookLimit) := Pass.run_eq .lateUpdate _
  unfold frame touredFrame
  rw [updated, lateUpdated]
  simp

/-! ## What is sent -/

/-- The component of a dispatch is enabled at that moment and its actor is active. -/
structure Dispatch.Due (d : Dispatch K B) : Prop where
  active : d.world.isActive d.target.actor
  enabled : d.world.slotEnabled d.target.actor d.target.index

/-- What is sent at looks: a look sends the hook if the actor is active and the component is
enabled. -/
def Look.dispatches (e : EntityId) (hook : Hook K) (looks : List (Look K B)) :
    List (Dispatch K B) :=
  (looks.filter fun look => look.world.isActive e && look.world.slotEnabled e look.index).map
    fun look => ⟨⟨e, look.index, hook⟩, look.world⟩

section Sent

variable [Scalar K]

/-- What is sent at a visit. -/
def Visit.dispatches (pass : Pass) (dt : K) (visit : Visit K B) : List (Dispatch K B) :=
  match visit.world.ownDelta? visit.actor dt with
  | none => []
  | some own => Look.dispatches visit.actor (pass.hook own) visit.looks

/-- What is sent by a pass. -/
def Tour.dispatches (pass : Pass) (tour : Tour K B) : List (Dispatch K B) :=
  tour.visits.flatMap fun visit => visit.dispatches pass tour.world.frameDelta

end Sent

/-- Dispatches one after another, where components have begun to act on the given updates before:
each is due when it is sent, and no other update comes in between. -/
def InStep (done : List (Acting K)) : List (Dispatch K B) → Prop
  | [] => True
  | d :: rest => d.Due ∧ d.world.updates = done ∧ InStep (done ++ [d.target]) rest

/-- Dispatches that are in step go on with those that are in step after them. -/
theorem InStep.append {done : List (Acting K)} {l l' : List (Dispatch K B)} (h : InStep done l)
    (h' : InStep (done ++ l.map Dispatch.target) l') : InStep done (l ++ l') := by
  induction l generalizing done with
  | nil => simpa using h'
  | cons d rest ih =>
    obtain ⟨due, updates, h⟩ := h
    refine ⟨due, updates, ih h ?_⟩
    simpa using h'

/-- Every one of the dispatches in step is due, after those before it. -/
theorem InStep.at {done : List (Acting K)} {l before after : List (Dispatch K B)}
    {d : Dispatch K B} (h : InStep done l) (split : l = before ++ d :: after) :
    d.Due ∧ d.world.updates = done ++ before.map Dispatch.target := by
  subst split
  induction before generalizing done with
  | nil => exact ⟨h.1, by simpa using h.2.1⟩
  | cons first before ih =>
    obtain ⟨-, -, h⟩ := h
    simpa using ih h

section Runs

variable [Scalar K] [Behavior K B]

/-- A scene goes on by sending updates. -/
structure Sends (w w' : World K B) (l : List (Dispatch K B)) : Prop where
  goesOn : w.GoesOn w'
  updates : w'.updates = w.updates ++ l.map Dispatch.target
  inStep : InStep w.updates l

namespace Sends

variable {w w' w₁ : World K B} {l l' : List (Dispatch K B)}

/-- A scene may go on by sending nothing. -/
theorem nothing (h : w.GoesOn w' ∧ w'.updates = w.updates) : Sends w w' [] :=
  ⟨h.1, by simpa using h.2, trivial⟩

/-- A scene may go on by sending some updates and then some more. -/
theorem trans (h : Sends w w₁ l) (h' : Sends w₁ w' l') : Sends w w' (l ++ l') where
  goesOn := h.goesOn.trans h'.goesOn
  updates := by simp [h'.updates, h.updates]
  inStep := h.inStep.append (h.updates ▸ h'.inStep)

end Sends

/-- The looks at the components of a visited actor are at their places, in order, as many as the
actor has once it has been reached, unless it ceases to be active. -/
structure Visit.Thorough (dt : K) (visit : Visit K B) (w : World K B) : Prop where
  places : ∃ m : World K B, visit.world.GoesOn m ∧ m.GoesOn w ∧
    visit.looks.map Look.index <+: List.range (m.componentCount visit.actor) ∧
    ((visit.world.ownDelta? visit.actor dt).isSome →
      (∀ look ∈ visit.looks, look.world.isActive visit.actor) →
      visit.looks.map Look.index = List.range (m.componentCount visit.actor))

/-- A visit stays thorough when the scene goes on. -/
theorem Visit.Thorough.later {dt : K} {visit : Visit K B} {w w' : World K B}
    (h : visit.Thorough dt w) (later : w.GoesOn w') : visit.Thorough dt w' := by
  obtain ⟨m, reached, left, looks⟩ := h.places
  exact ⟨m, reached, left.trans later, looks⟩

/-- A pass over all actors that are listed when it begins, thorough at each of them, after which
the scene has come to the given world. -/
structure Tour.Made (tour : Tour K B) (w : World K B) : Prop where
  poised : tour.world.Poised
  actors : tour.visits.map Visit.actor = tour.world.actors
  visits : ∀ visit ∈ tour.visits,
    tour.world.GoesOn visit.world ∧ visit.Thorough tour.world.frameDelta w
  left : tour.world.GoesOn w

/-- A pass stays made when the scene goes on. -/
theorem Tour.Made.later {tour : Tour K B} {w w' : World K B} (made : tour.Made w)
    (later : w.GoesOn w') : tour.Made w' where
  poised := made.poised
  actors := made.actors
  visits visit hvisit := ⟨(made.visits visit hvisit).1, (made.visits visit hvisit).2.later later⟩
  left := made.left.trans later

variable (behaved : PatientBehavior K B) {w w' : World K B} (h : w.Poised) {depth : Nat}
include behaved h

/-- A pass sends what it finds due when it looks. -/
theorem sends_lookedAt {e : EntityId} {hook : Hook K} (update : hook.isUpdate)
    {indices : List Nat} {looks : List (Look K B)}
    (hrun : SceneM.lookedAt (SceneM.respond depth) e hook indices w = .ok looks w') :
    Sends w w' (Look.dispatches e hook looks) ∧ looks.map Look.index <+: indices ∧
      ((∀ look ∈ looks, look.world.isActive e) → looks.map Look.index = indices) := by
  induction indices generalizing w looks with
  | nil =>
    cases hrun
    exact ⟨.nothing ⟨.refl _, rfl⟩, List.nil_prefix, fun _ => rfl⟩
  | cons index rest ih =>
    unfold SceneM.lookedAt at hrun
    obtain ⟨_, _, hget, hrun⟩ := bind_ok hrun
    cases hget
    by_cases active : w.isActive e
    · simp only [active, if_true] at hrun
      obtain ⟨_, w₁, hdispatch, hrun⟩ := bind_ok hrun
      obtain ⟨looks, w₂, hlooks, hpure⟩ := bind_ok hrun
      cases hpure
      have first : Sends w w₁ (Look.dispatches e hook [⟨index, w⟩]) := by
        unfold SceneM.dispatch at hdispatch
        obtain ⟨_, _, hget, hrespond⟩ := bind_ok hdispatch
        cases hget
        by_cases enabled : w.slotEnabled e index
        · simp only [enabled, if_true] at hrespond
          have sent := h.respond_update behaved update enabled hrespond
          simpa [Look.dispatches, active, enabled] using
            (⟨sent.1, sent.2, ⟨active, enabled⟩, rfl, trivial⟩ :
              Sends w w₁ [⟨⟨e, index, hook⟩, w⟩])
        · simp only [enabled] at hrespond
          cases hrespond
          simpa [Look.dispatches, enabled] using Sends.nothing ⟨.refl w, rfl⟩
      obtain ⟨others, inOrder, all⟩ := ih (first.goesOn.poised h) hlooks
      refine ⟨?_, ?_, fun stays => ?_⟩
      · have sent := first.trans others
        rwa [Look.dispatches, Look.dispatches, ← List.map_append, ← List.filter_append] at sent
      · simpa using inOrder
      · simpa using all fun look hlook => stays look (List.mem_cons_of_mem _ hlook)
    · simp only [active] at hrun
      cases hrun
      refine ⟨?_, ?_, fun stays => ?_⟩
      · simpa [Look.dispatches, active] using Sends.nothing ⟨.refl _, rfl⟩
      · simp
      · exact absurd (stays _ (List.mem_singleton_self _)) active

/-- The first pass lets it be observed that it comes to an actor; the second one does not. -/
theorem sends_announce {pass : Pass} {e : EntityId} {dt : K}
    (hrun : pass.announce (SceneM.respond depth) e dt w = .ok () w') : Sends w w' [] := by
  cases pass with
  | update =>
    change SceneM.emit (SceneM.respond depth) (.updated e dt) w = .ok () w' at hrun
    unfold SceneM.emit at hrun
    obtain ⟨_, _, hrecord, hrespond⟩ := bind_ok hrun
    cases hrecord
    have noted : w.GoesOn (w.record (.actor (.updated e dt))) :=
      (World.GoesOn.refl w).tail (.record rfl)
    have observed := (noted.poised h).respond_event behaved hrespond
    refine .nothing ⟨noted.trans observed.1, observed.2.trans ?_⟩
    unfold World.updates
    rw [World.stages_record_aside w rfl]
  | lateUpdate =>
    cases hrun
    exact .nothing ⟨.refl _, rfl⟩

/-- A visit sends what it finds due, and is thorough. -/
theorem sends_visited {pass : Pass} {e : EntityId} {dt : K} {visit : Visit K B}
    (hrun : pass.visited (SceneM.respond depth) e dt w = .ok visit w') :
    visit.actor = e ∧ visit.world = w ∧ Sends w w' (visit.dispatches pass dt) ∧
      visit.Thorough dt w' := by
  unfold Pass.visited at hrun
  obtain ⟨_, _, hget, hrun⟩ := bind_ok hrun
  cases hget
  cases hown : w.ownDelta? e dt with
  | none =>
    simp only [hown] at hrun
    cases hrun
    refine ⟨rfl, rfl, ?_, ⟨w, .refl w, .refl w, List.nil_prefix, fun takes => ?_⟩⟩
    · simpa [Visit.dispatches, hown] using Sends.nothing ⟨.refl w, rfl⟩
    · simp [hown] at takes
  | some own =>
    simp only [hown] at hrun
    obtain ⟨_, m, hannounce, hrun⟩ := bind_ok hrun
    obtain ⟨indices, _, hplaces, hrun⟩ := bind_ok hrun
    cases hplaces
    obtain ⟨looks, w₂, hlooks, hpure⟩ := bind_ok hrun
    cases hpure
    have announced := sends_announce behaved h hannounce
    have update : (pass.hook own).isUpdate := by cases pass <;> rfl
    obtain ⟨sent, inOrder, all⟩ :=
      sends_lookedAt behaved (announced.goesOn.poised h) update hlooks
    refine ⟨rfl, rfl, ?_, ⟨m, announced.goesOn, sent.goesOn, inOrder, fun _ => all⟩⟩
    simpa [Visit.dispatches, hown] using announced.trans sent

/-- The visits of a pass are to the actors in order, send what they find due, and are thorough. -/
theorem sends_visitedAll {pass : Pass} {dt : K} {actors : List EntityId}
    {visits : List (Visit K B)}
    (hrun : pass.visitedAll (SceneM.respond depth) dt actors w = .ok visits w') :
    visits.map Visit.actor = actors ∧ Sends w w' (visits.flatMap (Visit.dispatches pass dt)) ∧
      ∀ visit ∈ visits, w.GoesOn visit.world ∧ visit.Thorough dt w' := by
  induction actors generalizing w visits with
  | nil =>
    cases hrun
    exact ⟨rfl, .nothing ⟨.refl _, rfl⟩, fun visit hvisit => absurd hvisit List.not_mem_nil⟩
  | cons e rest ih =>
    unfold Pass.visitedAll at hrun
    obtain ⟨visit, w₁, hvisit, hrun⟩ := bind_ok hrun
    obtain ⟨visits, w₂, hvisits, hpure⟩ := bind_ok hrun
    cases hpure
    obtain ⟨actor, world, sent, thorough⟩ := sends_visited behaved h hvisit
    obtain ⟨others, later, visited⟩ := ih (sent.goesOn.poised h) hvisits
    refine ⟨by simp [actor, others], by simpa using sent.trans later, fun visit' hvisit' => ?_⟩
    rcases List.mem_cons.1 hvisit' with rfl | hvisit'
    · exact ⟨world ▸ .refl _, thorough.later later.goesOn⟩
    · obtain ⟨reached, thorough⟩ := visited visit' hvisit'
      exact ⟨sent.goesOn.trans reached, thorough⟩

/-- A pass does what its log says. -/
theorem sends_toured {pass : Pass} {tour : Tour K B}
    (hrun : pass.toured (SceneM.respond depth) w = .ok tour w') :
    tour.world = w ∧ Sends w w' (tour.dispatches pass) ∧ tour.Made w' := by
  unfold Pass.toured at hrun
  obtain ⟨_, _, hget, hrun⟩ := bind_ok hrun
  cases hget
  obtain ⟨visits, w₁, hvisits, hpure⟩ := bind_ok hrun
  cases hpure
  obtain ⟨actors, sent, visited⟩ := sends_visitedAll behaved h hvisits
  exact ⟨rfl, sent, h, actors, visited, sent.goesOn⟩

end Runs

/-! ## In order -/

/-- Components in the order in which actors are listed and components were added. -/
def Acting.Before (x y : Acting K) : Prop :=
  x.actor.index < y.actor.index ∨ x.actor = y.actor ∧ x.index < y.index

/-- Of components in order no two are the same. -/
theorem nodup_places {l : List (Acting K)} (h : l.Pairwise Acting.Before) :
    (l.map Acting.place).Nodup := by
  rw [List.Nodup, List.pairwise_map]
  refine h.imp fun {x y} before same => ?_
  simp only [Acting.place, Prod.mk.injEq] at same
  rcases before with actors | ⟨-, places⟩
  · rw [same.1] at actors
    exact Nat.lt_irrefl _ actors
  · omega

/-- What is at a place comes once. -/
theorem filter_place_eq {l : List (Acting K)} (once : (l.map Acting.place).Nodup) {x : Acting K}
    (hx : x ∈ l) : l.filter (fun y => y.place = x.place) = [x] := by
  obtain ⟨before, after, rfl⟩ := List.append_of_mem hx
  simp only [List.map_append, List.map_cons, List.nodup_append, List.nodup_cons] at once
  obtain ⟨-, ⟨notAfter, -⟩, apart⟩ := once
  have noneBefore : before.filter (fun y => y.place = x.place) = [] := by
    rw [List.filter_eq_nil_iff]
    intro y hy same
    exact apart y.place (List.mem_map_of_mem hy) x.place (List.mem_cons_self ..)
      (of_decide_eq_true same)
  have noneAfter : after.filter (fun y => y.place = x.place) = [] := by
    rw [List.filter_eq_nil_iff]
    intro y hy same
    rw [← of_decide_eq_true same] at notAfter
    exact notAfter (List.mem_map_of_mem hy)
  simp [noneBefore, noneAfter]

/-- What is sent at looks in order is sent in order. -/
theorem pairwise_dispatches {e : EntityId} {hook : Hook K} {looks : List (Look K B)}
    (sorted : (looks.map Look.index).Pairwise (· < ·)) :
    ((Look.dispatches e hook looks).map Dispatch.target).Pairwise Acting.Before := by
  unfold Look.dispatches
  rw [List.map_map, List.pairwise_map]
  refine ((List.pairwise_map.1 sorted).filter _).imp fun {x y} before => ?_
  exact .inr ⟨rfl, before⟩

variable [Scalar K]

/-- What is sent at a visit is sent to the visited actor. -/
theorem actor_of_mem_dispatches {pass : Pass} {dt : K} {visit : Visit K B} {d : Dispatch K B}
    (h : d ∈ visit.dispatches pass dt) : d.target.actor = visit.actor := by
  unfold Visit.dispatches at h
  split at h
  · cases h
  · obtain ⟨look, -, rfl⟩ := List.mem_map.1 h
    rfl

/-- A pass sends its own hooks, in the order in which actors are listed and components were added,
and to every component at most once. -/
structure Tour.InOrder (pass : Pass) (tour : Tour K B) : Prop where
  hooks : ∀ d ∈ tour.dispatches pass, ∃ dt, d.target.hook = pass.hook dt
  order : ((tour.dispatches pass).map Dispatch.target).Pairwise Acting.Before
  once : ((tour.dispatches pass).map fun d => d.target.place).Nodup

/-- A pass finds a component ready: the actor takes part in updates and is active when it is
reached, it is still active at all looks, and the component is enabled when the pass looks at it. -/
structure Tour.FindsReady (tour : Tour K B) (e : EntityId) (index : Nat) : Prop where
  reached : ∀ visit ∈ tour.visits, visit.actor = e →
    (∃ a, visit.world.actor? e = some a ∧ a.updateEnabled) ∧ visit.world.isActive e
  looks : ∀ visit ∈ tour.visits, visit.actor = e → ∀ look ∈ visit.looks,
    look.world.isActive e ∧ (look.index = index → look.world.slotEnabled e index)

instance (tour : Tour K B) (e : EntityId) (index : Nat) : Decidable (tour.FindsReady e index) :=
  decidable_of_iff
    ((∀ visit ∈ tour.visits, visit.actor = e →
        ((visit.world.actor? e).any fun a => a.updateEnabled) ∧ visit.world.isActive e) ∧
      ∀ visit ∈ tour.visits, visit.actor = e → ∀ look ∈ visit.looks,
        look.world.isActive e ∧ (look.index = index → look.world.slotEnabled e index))
    ⟨fun h => ⟨by simpa only [Option.any_eq_true] using h.1, h.2⟩,
      fun h => ⟨by simpa only [Option.any_eq_true] using h.reached, h.looks⟩⟩

section Tours

variable [Behavior K B] {pass : Pass} {tour : Tour K B} {w w' : World K B} (made : tour.Made w)
include made

/-- A pass that is made sends its updates in order. -/
theorem Tour.Made.inOrder : tour.InOrder pass := by
  have order : ((tour.dispatches pass).map Dispatch.target).Pairwise Acting.Before := by
    unfold Tour.dispatches
    rw [List.map_flatMap, List.pairwise_flatMap]
    constructor
    · intro visit hvisit
      obtain ⟨m, -, -, inOrder, -⟩ := (made.visits visit hvisit).2.places
      unfold Visit.dispatches
      split
      · exact .nil
      · exact pairwise_dispatches (List.pairwise_lt_range.sublist inOrder.sublist)
    · have sorted := made.poised.listed.sorted
      rw [← made.actors, List.pairwise_map] at sorted
      refine sorted.imp fun {visit visit'} before x hx y hy => .inl ?_
      obtain ⟨d, hd, rfl⟩ := List.mem_map.1 hx
      obtain ⟨d', hd', rfl⟩ := List.mem_map.1 hy
      rwa [actor_of_mem_dispatches hd, actor_of_mem_dispatches hd']
  refine ⟨fun d hd => ?_, order, ?_⟩
  · obtain ⟨visit, -, hd⟩ := List.mem_flatMap.1 hd
    unfold Visit.dispatches at hd
    split at hd
    · cases hd
    · rename_i own _
      obtain ⟨look, -, rfl⟩ := List.mem_map.1 hd
      exact ⟨own, rfl⟩
  · have places := nodup_places order
    rwa [List.map_map] at places

/-- A component that was there before, and that the pass finds ready, is sent the hook once. -/
theorem Tour.Made.sends_ready (began : w'.GoesOn tour.world) {e : EntityId} {index : Nat}
    (there : index < w'.componentCount e) (stays : (w.actor? e).isSome)
    (ready : tour.FindsReady e index) :
    ∃ visit ∈ tour.visits, visit.actor = e ∧ ∃ a, visit.world.actor? e = some a ∧
      ((tour.dispatches pass).map Dispatch.target).filter (fun x => x.place = (e, index))
        = [⟨e, index, pass.hook (tour.world.frameDelta * a.timeScale)⟩] := by
  have known : e.index < w'.entities.size := by
    refine World.index_lt_of_slots? (Option.isSome_iff_ne_none.2 fun none => ?_)
    simp [World.componentCount, none] at there
  have stays' : (w.entity? e).isSome := by
    obtain ⟨a, ha⟩ := Option.isSome_iff_exists.1 stays
    exact World.isSome_entity?_of_actor? ha
  have actor : (tour.world.actor? e).isSome := by
    have known' := Nat.lt_of_lt_of_le known began.precedes.size
    rwa [made.left.precedes.actor?_isSome known' stays'] at stays
  obtain ⟨visit, hvisit, rfl⟩ : ∃ visit ∈ tour.visits, visit.actor = e := by
    have hmem := made.poised.listed.listed e actor
    rwa [← made.actors, List.mem_map] at hmem
  obtain ⟨⟨a, ha, takes⟩, active⟩ := ready.reached visit hvisit rfl
  refine ⟨visit, hvisit, rfl, a, ha, ?_⟩
  have own : visit.world.ownDelta? visit.actor tour.world.frameDelta
      = some (tour.world.frameDelta * a.timeScale) := by
    simp [World.ownDelta?, ha, takes, active]
  obtain ⟨onTheWay, thorough⟩ := made.visits visit hvisit
  obtain ⟨m, reached, later, -, all⟩ := thorough.places
  -- All components are looked at, and the one that was there before is among them.
  have looks : visit.looks.map Look.index = List.range (m.componentCount visit.actor) := by
    apply all
    · rw [own, Option.isSome_some]
    · intro look hlook
      exact (ready.looks visit hvisit rfl look hlook).1
  have here : index < m.componentCount visit.actor := by
    have before := (began.trans (onTheWay.trans reached)).precedes
    have there' := later.precedes.entity?_isSome (Nat.lt_of_lt_of_le known before.size) stays'
    exact Nat.lt_of_lt_of_le there (before.componentCount_le there')
  obtain ⟨look, hlook, rfl⟩ : ∃ look ∈ visit.looks, look.index = index := by
    rw [← List.mem_map, looks]
    exact List.mem_range.2 here
  obtain ⟨active, enabled⟩ := ready.looks visit hvisit rfl look hlook
  have sent : ⟨visit.actor, look.index, pass.hook (tour.world.frameDelta * a.timeScale)⟩
      ∈ (tour.dispatches pass).map Dispatch.target := by
    refine List.mem_map.2 ⟨⟨_, look.world⟩, List.mem_flatMap.2 ⟨visit, hvisit, ?_⟩, rfl⟩
    unfold Visit.dispatches
    rw [own]
    refine List.mem_map.2 ⟨look, List.mem_filter.2 ⟨hlook, ?_⟩, rfl⟩
    simp [active, enabled rfl]
  have inOrder : tour.InOrder pass := made.inOrder
  exact filter_place_eq (nodup_places inOrder.order) sent

end Tours

/-! ## Frames -/

section Frames

variable [Behavior K B] (behaved : PatientBehavior K B)
include behaved

/-- A frame sends what its two passes send, and the second pass begins where the first one ends. -/
theorem sends_inTurn {w w' : World K B} (h : w.Poised) {dt : K} {updates lates : Tour K B}
    (hrun : SceneM.touredFrame dt w = .ok (updates, lates) w') :
    Sends w w' (updates.dispatches .update ++ lates.dispatches .lateUpdate) ∧
      (w.GoesOn updates.world ∧ updates.Made lates.world) ∧ lates.Made w' := by
  unfold SceneM.touredFrame at hrun
  obtain ⟨_, w₁, hticked, hrun⟩ := bind_ok hrun
  obtain ⟨_, w₂, hcommanded, hrun⟩ := bind_ok hrun
  obtain ⟨_, w₃, hthreads, hrun⟩ := bind_ok hrun
  obtain ⟨updates', w₄, hupdates, hrun⟩ := bind_ok hrun
  obtain ⟨lates', w₅, hlates, hrun⟩ := bind_ok hrun
  obtain ⟨_, w₆, hswept, hpure⟩ := bind_ok hrun
  cases hpure
  have ticked := h.perform behaved id hticked
  have commanded := (ticked.1.poised h).perform behaved id hcommanded
  have before := (Sends.nothing ticked).trans (.nothing commanded)
  have threads := (before.goesOn.poised h).perform behaved id hthreads
  have before := before.trans (.nothing threads)
  obtain ⟨rfl, updated, updates⟩ := sends_toured behaved (before.goesOn.poised h) hupdates
  have between := before.trans updated
  obtain ⟨rfl, lateUpdated, lates⟩ := sends_toured behaved (between.goesOn.poised h) hlates
  have after := between.trans lateUpdated
  have swept := Sends.nothing ((after.goesOn.poised h).perform behaved id hswept)
  refine ⟨?_, ⟨before.goesOn, updates⟩, lates.later swept.goesOn⟩
  simpa using after.trans swept

/-- Seen from its end, a frame has made both passes. -/
theorem sends_touredFrame {w w' : World K B} (h : w.Poised) {dt : K} {updates lates : Tour K B}
    (hrun : SceneM.touredFrame dt w = .ok (updates, lates) w') :
    Sends w w' (updates.dispatches .update ++ lates.dispatches .lateUpdate) ∧
      (w.GoesOn updates.world ∧ updates.Made w') ∧ w.GoesOn lates.world ∧ lates.Made w' := by
  obtain ⟨sends, ⟨began, first⟩, second⟩ := sends_inTurn behaved h hrun
  exact ⟨sends, ⟨began, first.later second.left⟩, began.trans first.left, second⟩

/-- The updates of a frame, whatever else hooks, observers and host functions do, as long as they
ask for no updates themselves. The first pass sends its updates and the second one sends the others,
and components are sent nothing else; each one at a moment when the component is enabled and its
actor is active. A pass follows the list of actors and the order in which components were added, and
sends to every component at most once. A component that was there before the frame, on an actor that
is still there afterwards, is sent the update of a pass that finds it ready exactly once, with the
delta of the frame times the time scale that the actor has when the pass reaches it. -/
theorem frames_update_in_order {w w' : World K B} (h : Reachable (Scope.everything K B).fit w)
    (patient : FitScheduler (Scope.patient K B).fit w) {dt : K}
    (hrun : SceneM.frame dt w = .ok () w') :
    ∃ updates lates : Tour K B, SceneM.touredFrame dt w = .ok (updates, lates) w' ∧
      w'.updates = w.updates ++ ((updates.dispatches .update).map Dispatch.target ++
        (lates.dispatches .lateUpdate).map Dispatch.target) ∧
      (∀ before d after, updates.dispatches .update ++ lates.dispatches .lateUpdate
          = before ++ d :: after →
        d.Due ∧ d.world.updates = w.updates ++ before.map Dispatch.target) ∧
      ∀ pass tour, (pass, tour) = (Pass.update, updates) ∨ (pass, tour) = (Pass.lateUpdate, lates) →
        tour.visits.map Visit.actor = tour.world.actors ∧ tour.InOrder pass ∧
        ∀ e index, index < w.componentCount e → (w'.actor? e).isSome → tour.FindsReady e index →
          ∃ visit ∈ tour.visits, visit.actor = e ∧ ∃ a, visit.world.actor? e = some a ∧
            ((tour.dispatches pass).map Dispatch.target).filter (fun x => x.place = (e, index))
              = [⟨e, index, pass.hook (tour.world.frameDelta * a.timeScale)⟩] := by
  have poised : w.Poised :=
    ⟨h.rested, patient, h.listed Scope.behaved_everything fun _ => ⟨trivial, trivial⟩⟩
  rw [SceneM.frame_eq_touredFrame] at hrun
  obtain ⟨⟨updates, lates⟩, htoured, -⟩ := map_ok hrun
  obtain ⟨sends, first, second⟩ := sends_touredFrame behaved poised htoured
  refine ⟨updates, lates, htoured, ?_, fun before d after => sends.inStep.at, ?_⟩
  · simpa using sends.updates
  · intro pass tour which
    have made : w.GoesOn tour.world ∧ tour.Made w' := by
      rcases which with same | same
      · cases same
        exact first
      · cases same
        exact second
    refine ⟨made.2.actors, made.2.inOrder, fun e index there stays ready => ?_⟩
    exact made.2.sends_ready made.1 there stays ready

end Frames

/-! ## A component that switches another one off -/

/-- Meddlers switch off the bystander of their actor when they are updated. -/
inductive Meddling where
  | meddler
  | bystander

instance : Behavior Float32 Meddling where
  typeName
    | .meddler => "Meddler"
    | .bystander => "Bystander"
  react b e hook :=
    match b, hook with
    | .meddler, .update _ => do
      let () ← Program.request (.setEnabled e (.custom "Bystander") false)
      return b
    | b, _ => return b

/-- An actor with a meddler and a bystander, and one with a bystander. -/
def meddledScene : Program Float32 Meddling Unit := do
  let a ← Program.edit (.spawn (.named "a"))
  let b ← Program.edit (.spawn (.named "b"))
  let _ ← Program.edit (.add a (.custom .meddler))
  let _ ← Program.edit (.add a (.custom .bystander))
  let _ ← Program.edit (.add b (.custom .bystander))
  return ()

/-- The meddling components are patient. -/
theorem patientBehavior_meddling : PatientBehavior Float32 Meddling where
  react b e hook := by
    cases b with
    | meddler =>
      cases hook with
      | update dt => exact Program.only_bind (Program.only_request id) fun _ => Program.only_pure _
      | _ => exact Program.only_pure _
    | bystander => exact Program.only_pure _
  observe _ := trivial

/-- The bystander beside the meddler is not updated, and the other one is, once in each pass. -/
theorem frames_update_in_order_meddled :
    PatientBehavior Float32 Meddling ∧ ∃ w w' : World Float32 Meddling,
      Reachable (Scope.everything Float32 Meddling).fit w ∧
      FitScheduler (Scope.patient Float32 Meddling).fit w ∧ SceneM.frame 1 w = .ok () w' ∧
      w'.updates.map Acting.place = [(⟨0⟩, 0), (⟨1⟩, 0), (⟨0⟩, 0), (⟨1⟩, 0)] ∧
      ∃ updates lates : Tour Float32 Meddling,
        SceneM.touredFrame 1 w = .ok (updates, lates) w' ∧
        updates.InOrder .update ∧ lates.InOrder .lateUpdate ∧
        (∃ dt, ((updates.dispatches .update).map Dispatch.target).filter
          (fun x => x.place = (⟨1⟩, 0)) = [⟨⟨1⟩, 0, .update dt⟩]) ∧
        ∃ dt, ((lates.dispatches .lateUpdate).map Dispatch.target).filter
          (fun x => x.place = (⟨1⟩, 0)) = [⟨⟨1⟩, 0, .lateUpdate dt⟩] := by
  have run : meddledScene.passes .bare fun _ w =>
      passes (SceneM.touredFrame 1) { w with scheduler := some (.ofTable HostFunctions.table) }
        fun tours w' =>
          decide (w'.updates.map Acting.place = [(⟨0⟩, 0), (⟨1⟩, 0), (⟨0⟩, 0), (⟨1⟩, 0)]) &&
          decide (0 < w.componentCount ⟨1⟩) && (w'.actor? ⟨1⟩).isSome &&
          decide (tours.1.FindsReady ⟨1⟩ 0) && decide (tours.2.FindsReady ⟨1⟩ 0) := by
    decide +kernel
  obtain ⟨_, w₀, hrun, frame⟩ := Program.exists_of_passes run
  obtain ⟨⟨updates, lates⟩, w', htoured, checked⟩ := exists_of_passes frame
  simp only [Bool.and_eq_true, decide_eq_true_eq] at checked
  obtain ⟨⟨⟨⟨places, there⟩, stays⟩, ready⟩, ready'⟩ := checked
  let w : World Float32 Meddling := { w₀ with scheduler := some (.ofTable HostFunctions.table) }
  have built : Reachable (Scope.everything Float32 Meddling).fit w₀ :=
    .step (.empty rfl rfl rfl rfl) (.program (Scope.fit_everything meddledScene) hrun)
  have h : Reachable (Scope.everything Float32 Meddling).fit w :=
    .step built (.install fun _ _ _ => Scope.fit_everything _)
  have patient : FitScheduler (Scope.patient Float32 Meddling).fit w := by
    intro scheduler hscheduler
    cases hscheduler
    exact HostFunctions.fitTable_patient
  have hframe : SceneM.frame 1 w = .ok () w' := by
    rw [SceneM.frame_eq_touredFrame]
    exact map_of_ok htoured
  obtain ⟨updates', lates', htoured', -, -, passes⟩ :=
    frames_update_in_order patientBehavior_meddling h patient hframe
  cases htoured.symm.trans htoured'
  obtain ⟨-, inOrder, once⟩ := passes .update updates (.inl rfl)
  obtain ⟨-, inOrder', once'⟩ := passes .lateUpdate lates (.inr rfl)
  obtain ⟨_, -, -, a, -, sent⟩ := once ⟨1⟩ 0 there stays ready
  obtain ⟨_, -, -, a', -, sent'⟩ := once' ⟨1⟩ 0 there stays ready'
  exact ⟨patientBehavior_meddling, w, w', h, patient, hframe, places, updates, lates, htoured,
    inOrder, inOrder', ⟨_, sent⟩, _, sent'⟩

end SheepScene
