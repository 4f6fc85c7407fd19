import SheepScene.Proofs.Scene.Deactivation
import SheepScene.Proofs.Scene.Sending

/-!
# A new move in place of the old one

All moves of an actor are made by one and the same mover, its first one, so that a move takes the
place of the one before. When an active actor is sent somewhere, every handle that was answered when
it was sent somewhere before is complete, and as long as the new handle is not, the first mover of
the actor holds it and heads for the new point (`a_move_supersedes_earlier_ones`). The handles are
complete as well when an actor is sent somewhere that has been switched off itself.

An actor may also be inactive because one above it is. Then it is put where it is to be, but its
mover goes on holding the earlier handle (`earlier_moves_may_stay_open`).
-/

set_option autoImplicit false

namespace SheepScene

/-! ## The first mover of an actor stays the first one -/

section Leading

variable {K B : Type}

/-- A place is the place of the first mover of an actor. -/
def leading (K B : Type) (x : EntityId × Nat) : Trait K B where
  floor := 0
  places := [x]
  has _ y kind _ := (y = x → kind = .mover) ∧ (y.1 = x.1 → y.2 < x.2 → kind ≠ .mover)

/-- Whatever movers do, the first one stays where it is. -/
theorem stable_leading [Scalar K] (x : EntityId × Nat) : (leading K B x).Stable :=
  ⟨id, id, id, id⟩

/-- No edit puts a mover before it. -/
theorem suits_leading [Scalar K] [Behavior K B] (x : EntityId × Nat) (edit : Edit K B) :
    edit.Suits (leading K B x) := by
  cases edit with
  | add e c =>
    intro n index _ behind
    refine ⟨fun here => ?_, fun same before => ?_⟩
    · subst here
      exact absurd (behind _ (List.mem_singleton_self _) rfl) (Nat.lt_irrefl _)
    · exact absurd (Nat.lt_trans before (behind x (List.mem_singleton_self x) same.symm))
        (Nat.lt_irrefl _)
  | retarget => exact fun n index kind m _ h => h
  | issueWait => exact fun n x kind c _ h => h
  | _ => trivial

/-- The first mover of an actor stays the first one as long as the actor is there. -/
theorem Onward.first? [Scalar K] [Behavior K B] {fit : Fitness K B} {w w' : World K B}
    (h : AtMoment fit w) (onward : Onward fit w w') {e : EntityId} {first : Nat}
    (isFirst : w.first? e .mover = some first) (there : (w'.slots? e).isSome) :
    w'.first? e .mover = some first := by
  obtain ⟨kind, before⟩ := World.first?_eq_some_iff.1 isFirst
  obtain ⟨slot, hslot, -⟩ := Option.map_eq_some_iff.1 kind
  have had : (leading K B (e, first)).Had (Scope.everything K B).fit [] w := by
    refine ⟨⟨Nat.zero_le _, fun x hx => ?_, fun x hx => (nomatch hx), fun y c _ slot' there' => ?_⟩,
      Scope.fitScheduler_everything w⟩
    · cases List.mem_singleton.1 hx
      exact .of_slot? hslot
    · refine ⟨fun here => ?_, fun same lt is => ?_⟩
      · cases here
        rw [there'] at kind
        exact Option.some.inj kind
      · refine before y.2 lt ?_
        rw [show e = y.1 from same.symm, there', Option.map_some, is]
  have had' := (Trait.kept_everything (stable_leading (e, first)) (suits_leading _)).lasting.onward
    (onward.mono fun _ p _ => Scope.fit_everything p) had
  have rested := (h.onward onward).rested
  have each : ∀ y slot', w'.slot? y.1 y.2 = some slot' → (y = (e, first) → slot'.kind = .mover) ∧
      (y.1 = e → y.2 < first → slot'.kind ≠ .mover) := by
    intro y slot' there'
    obtain ⟨c, hc⟩ := Option.isSome_iff_exists.1 (rested y slot' there').1
    exact had'.1.each y c (.inl (by rw [World.cell?, there', Option.map_some, hc])) slot' there'
  refine World.first?_eq_some_iff.2 ⟨?_, fun i lt is => ?_⟩
  · obtain ⟨slot', there'⟩ := Option.isSome_iff_exists.1
      ((had'.1.places (e, first) (List.mem_singleton_self _)).2 there)
    rw [there', Option.map_some, (each _ slot' there').1 rfl]
  · obtain ⟨slot', there', is⟩ := Option.map_eq_some_iff.1 is
    exact (each (e, i) slot' there').2 rfl lt is

end Leading

/-! ## Traits that moves keep -/

section Traits

variable {B : Type} [Behavior Float32 B]

/-- Moves keep a trait when issuing a handle suits it, and giving a mover a handle that has just
been issued. -/
theorem Trait.keeps_moveActorTo {trait : Trait Float32 B} {fit : Fitness Float32 B}
    {perform : Performer Float32 B} (serves : Serves (trait.Had fit) perform)
    (issue : (Edit.issueWait : Edit Float32 B).Suits trait)
    (retarget : ∀ k, trait.floor ≤ k → ∀ e target duration,
      (Edit.retarget e target duration (some (.issued k)) : Edit Float32 B).Suits
        (trait.since (k + 1)))
    (add : ∀ k, trait.floor ≤ k → ∀ e (m : Mover Float32), m.done = some (.issued k) →
      (Edit.add e (.mover m) : Edit Float32 B).Suits (trait.since (k + 1)))
    (args : List Value) (out : List (Executing Float32 B)) :
    Keeps (trait.Had fit out) ((HostFunctions.moveActorTo args).run perform) := by
  -- a handle is issued, so that the trait is had since more of them were
  have issued : ∀ w, trait.Had fit out w → ∃ k, trait.floor ≤ k ∧
      (w.apply .issueWait).1 = .issued k ∧
        (trait.since (k + 1)).Had fit out (w.apply .issueWait).2 := by
    intro w hw
    have after := hw.apply issue
    refine ⟨w.waits.issued.size, hw.1.issued, rfl, ⟨?_, after.1.places, after.1.placed,
      after.1.each⟩, after.2⟩
    exact Nat.le_of_eq w.waits.size_issue.symm
  unfold HostFunctions.moveActorTo
  refine ensures_runBind (Trait.keeps_plain serves (HostFunctions.plain_namedActor _ _) out)
    fun found => ?_
  cases found with
  | none => exact ensures_runPure fun _ hw => hw
  | some e =>
    refine ensures_runBind (Q := fun _ => trait.Had fit out)
      (serves.ensures_ask fun _ hw => hw) fun active => ?_
    split
    · refine ensures_runBind (Q := fun _ => trait.Had fit out)
        (serves.ensures_edit fun _ hw => hw.apply trivial) fun _ => ?_
      exact ensures_runPure fun _ hw => hw
    · refine ensures_runBind (Q := fun handle w => ∃ k, trait.floor ≤ k ∧ handle = .issued k ∧
        (trait.since (k + 1)).Had fit out w) (serves.ensures_edit issued) fun handle => ?_
      refine ensures_runBind (Q := fun _ w => ∃ k, trait.floor ≤ k ∧ handle = .issued k ∧
        (trait.since (k + 1)).Had fit out w) (serves.ensures_edit ?_) fun moved => ?_
      · rintro w ⟨k, le, rfl, hw⟩
        exact ⟨k, le, rfl, hw.apply (retarget k le _ _ _)⟩
      have since : ∀ w, (∃ k, trait.floor ≤ k ∧ handle = .issued k ∧
          (trait.since (k + 1)).Had fit out w) → trait.Had fit out w := by
        rintro w ⟨k, le, -, hw⟩
        exact hw.since (Nat.le_succ_of_le le)
      split
      · refine ensures_runBind (Q := fun _ => trait.Had fit out) (ensures_runRequest ?_) fun _ =>
          ensures_runPure fun _ hw => hw
        exact (serves.compound (.setEnabled e .mover true) trivial out).imp since fun _ _ hw => hw
      · refine ensures_runBind (Q := fun _ => trait.Had fit out)
          (serves.ensures_edit fun w hw => ?_) fun _ => ensures_runPure fun _ hw => hw
        obtain ⟨k, le, rfl, hw⟩ := hw
        exact (hw.apply (add k le e _ rfl)).since (Nat.le_succ_of_le le)

/-! ## Programs that retarget movers by moves only -/

/-- Calm requests that retarget no mover. -/
def Request.Still {K : Type} : Request K B → Prop
  | .edit (.retarget ..) => False
  | request => request.Calm

omit [Behavior Float32 B] in
/-- Plain requests are still. -/
theorem Request.Plain.still {K : Type} {request : Request K B} (h : request.Plain) :
    request.Still := by
  cases request with
  | edit x => cases x <;> first | exact trivial | exact absurd h id
  | _ => trivial

/-- Programs that issue handles, and retarget movers, for moves of actors only. -/
def steering (B : Type) : Fitness Float32 B :=
  fun _ p => WithMoves Request.Still p

/-- Custom components and observers retarget movers by moves only. -/
abbrev SteeringBehavior (B : Type) [Behavior Float32 B] : Prop :=
  CustomFit (steering B)

omit [Behavior Float32 B] in
/-- The functions that every scene offers retarget movers by moves only. -/
theorem HostFunctions.fitTable_steering : FitTable (steering B) table :=
  fitTable_withMoves fun _ => Request.Plain.still

/-! ## Who holds the handle of a move -/

omit [Behavior Float32 B] in
/-- Only the mover at a place may hold the handle of a number, and heads for a point then. -/
def holder (B : Type) (serial : Nat) (x : EntityId × Nat) (target : Vec3 Float32) :
    Trait Float32 B where
  floor := serial + 1
  places := []
  has _ y _ c := c.holds? = some (.issued serial) → y = x ∧ ∃ m, c = .mover m ∧ m.target = target

section Holder

variable {serial : Nat} {x : EntityId × Nat} {target : Vec3 Float32}

omit [Behavior Float32 B] in
/-- Whatever a mover does while it holds the handle, it heads for the same point. -/
theorem stable_holder : (holder B serial x target).Stable where
  carried h holds := ⟨(h holds).1, _, rfl, by
    obtain ⟨-, m, hm, aim⟩ := h holds
    cases hm
    exact aim⟩
  ended _ holds := nomatch holds
  restarted _ holds := nomatch holds
  custom _ holds := nomatch holds

/-- The handle stays where it was given as long as handles are issued for moves only. -/
theorem kept_holder (behaved : MovingBehavior B) :
    Kept (moving B) ((holder B serial x target).Had (moving B)) := by
  have newer : ∀ k, serial + 1 ≤ k → ∀ {m : Mover Float32}, m.done = some (.issued k) →
      m.done = some (.issued serial) → False := by
    intro k le m given holds
    cases given.symm.trans holds
    exact absurd le (Nat.not_succ_le_self serial)
  refine Trait.kept stable_holder (fun serves R p fit out => ?_) behaved.react behaved.observe
  refine serves.keeps_withMoves (fun edit w calm hw => hw.apply ?_)
    (fun event w hw => hw.record event)
    (fun args => Trait.keeps_moveActorTo serves ?_ ?_ ?_ args out) fit
  · cases edit with
    | add e c =>
      intro n index _ _ holds
      cases (show c.holds? = none from calm).symm.trans holds
    | retarget e point duration done =>
      cases (show done = none from calm)
      exact fun n index kind m _ _ holds => nomatch holds
    | issueWait => exact absurd calm id
    | _ => trivial
  · exact fun n y kind c _ h => h
  · exact fun k le e point duration n index kind m _ _ holds => (newer k le rfl holds).elim
  · exact fun k le e m given n index _ _ holds => (newer k le given holds).elim

end Holder

omit [Behavior Float32 B] in
/-- As long as no more handles are issued the mover at a place heads for a point. -/
def heading (B : Type) (issued : Nat) (x : EntityId × Nat) (target : Vec3 Float32) :
    Trait Float32 B where
  floor := issued
  places := [x]
  has n y _ c := n = issued → y = x → ∃ m, c = .mover m ∧ m.target = target

section Heading

variable {issued : Nat} {x : EntityId × Nat} {target : Vec3 Float32}

omit [Behavior Float32 B] in
/-- Whatever a mover does by itself, it heads for the same point. -/
theorem stable_heading : (heading B issued x target).Stable where
  carried h hn hy := ⟨_, rfl, by
    obtain ⟨m, hm, aim⟩ := h hn hy
    cases hm
    exact aim⟩
  ended h hn hy := ⟨_, rfl, by
    obtain ⟨m, hm, aim⟩ := h hn hy
    cases hm
    exact aim⟩
  restarted h hn hy := ⟨_, rfl, by
    obtain ⟨m, hm, aim⟩ := h hn hy
    cases hm
    exact aim⟩
  custom h hn hy := by
    obtain ⟨m, hm, -⟩ := h hn hy
    cases hm

/-- The mover heads for its point until the next handle is issued, where movers are sent by moves
only. -/
theorem kept_heading (behaved : SteeringBehavior B) :
    Kept (steering B) ((heading B issued x target).Had (steering B)) := by
  have elsewhere : ∀ {e index}, (∀ y ∈ [x], y.1 = e → y.2 < index) → (e, index) ≠ x := by
    rintro e index behind rfl
    exact absurd (behind _ (List.mem_singleton_self _) rfl) (Nat.lt_irrefl _)
  have later : ∀ {n k}, issued ≤ k → k + 1 ≤ n → n ≠ issued := by
    omega
  refine Trait.kept stable_heading (fun serves R p fit out => ?_) behaved.react behaved.observe
  refine serves.keeps_withMoves (fun edit w still hw => hw.apply ?_)
    (fun event w hw => hw.record event)
    (fun args => Trait.keeps_moveActorTo serves ?_ ?_ ?_ args out) fit
  · cases edit with
    | add e c => exact fun n index _ behind _ here => absurd here (elsewhere behind)
    | retarget | issueWait => exact absurd still id
    | _ => trivial
  · exact fun n y kind c le _ same => absurd same (later le (Nat.le_refl _))
  · exact fun k le e point duration n index kind m le' _ same => absurd same (later le le')
  · exact fun k le e m given n index le' _ same => absurd same (later le le')

end Heading

end Traits

/-! ## Calls -/

section Calls

variable {B : Type} [Behavior Float32 B]

/-- An actor is sent somewhere by a call, which answers. -/
structure Called (w : World Float32 B) (e : EntityId) (args : List Value) (reply : Reply)
    (w' : World Float32 B) : Prop where
  found : w.find? (HostFunctions.text args 0) = some e
  run : (HostFunctions.moveActorTo args).run
    (SceneM.performWithin (SceneM.respond SceneM.hookLimit)) w = .ok reply w'

/-- Where a call sends its actor. -/
abbrev goal (args : List Value) : Vec3 Float32 :=
  HostFunctions.point args 1

variable {w w' v v' : World Float32 B} {e : EntityId} {args args' : List Value}
  {reply reply' : Reply} {fit : Fitness Float32 B}

/-- A call is a turn of the scene. -/
theorem Called.turn (called : Called w e args reply w')
    (fitting : fit Reply ((HostFunctions.moveActorTo args).bind .done)) : Turn fit w w' := by
  refine .call fitting (?_ : _ = EStateM.Result.ok reply w')
  rw [Program.run_bind, bind_of_ok called.run]
  rfl

section Moving

variable (behaved : MovingBehavior B) (h : AtMoment (moving B) w)
include behaved h

/-- At a moment all handles are booked. -/
theorem AtMoment.booked : Booked 0 [] w :=
  (kept_booked behaved 0).lasting.moment (fun _ entities _ waits scheduler =>
    booked_empty entities waits scheduler) h

/-- At a moment, no mover holds a handle that has not been issued. -/
theorem AtMoment.fresh {x : EntityId × Nat} {m : Mover Float32}
    (there : w.cell? x = some (some (.mover m))) : m.done ≠ some (.issued w.waits.issued.size) := by
  intro holds
  obtain ⟨serial, lt, same⟩ := (h.booked behaved).1.ledger.issued (x := x) ⟨_, .inl there, holds⟩
  cases same
  exact absurd lt (Nat.lt_irrefl _)

/-- At a moment, a mover that holds a handle is on an actor that has not been switched off. -/
theorem AtMoment.not_switchedOff {x : EntityId × Nat} {m : Mover Float32}
    (there : w.cell? x = some (some (.mover m))) (holds : m.done.isSome) :
    ¬ w.SwitchedOff x.1 := by
  have orderly : Orderly .none w := by
    refine (lasting_orderly behaved).moment (fun w entities _ _ scheduler => ?_) h
    refine ⟨rfl, .of_empty entities, fun s hs => ?_⟩
    cases scheduler.symm.trans hs
  obtain ⟨slot, hslot, hm⟩ := Option.map_eq_some_iff.1 there
  have running := (orderly.2.1.slot x slot hslot).running m hm holds List.not_mem_nil
  exact fun off => absurd (running.2 off) List.not_mem_nil

/-- At a moment every call answers. -/
theorem exists_called (found : w.find? (HostFunctions.text args 0) = some e) :
    ∃ reply w', Called w e args reply w' ∧ if w.isActive e
      then reply = .waiting (.issued w.waits.issued.size) ∧
        ∃ first, w.SentOff w' e first (goal args) (HostFunctions.float args 4)
      else reply = .void ∧ w' = w.placeInWorld e (.position (goal args)) := by
  cases active : w.isActive e with
  | true =>
    obtain ⟨depth, limit⟩ := SceneM.exists_hookLimit
    obtain ⟨first, w', run, sent⟩ := HostFunctions.exists_sent found active h
      (fun index m there => h.fresh behaved there) depth
    exact ⟨_, w', ⟨found, limit ▸ run⟩, rfl, first, sent⟩
  | false =>
    exact ⟨_, _, ⟨found, HostFunctions.run_moveActorTo_resting found active⟩, rfl, rfl⟩

variable (called : Called w e args reply w')
include called

/-- What is answered and how the scene is then. -/
theorem Called.cases : if w.isActive e
    then reply = .waiting (.issued w.waits.issued.size) ∧
      ∃ first, w.SentOff w' e first (goal args) (HostFunctions.float args 4)
    else reply = .void ∧ w' = w.placeInWorld e (.position (goal args)) := by
  obtain ⟨reply', v, called', outcome⟩ := exists_called behaved h called.found
  cases called.run.symm.trans called'.run
  exact outcome

omit behaved in
/-- After a call there is a moment. -/
theorem Called.moment : AtMoment (moving B) w' :=
  h.onward (.single (called.turn (WithMoves.move fun reply => .done reply)))

/-- A call that answers something to wait for sends the first mover of an active actor. -/
theorem Called.sent {k : WaitHandle} (waits : reply.wait = some k) :
    w.isActive e = true ∧ k = .issued w.waits.issued.size ∧
      ∃ first, w.SentOff w' e first (goal args) (HostFunctions.float args 4) := by
  have outcome := called.cases behaved h
  split at outcome
  · rename_i active
    obtain ⟨rfl, sent⟩ := outcome
    cases waits
    exact ⟨active, rfl, sent⟩
  · obtain ⟨rfl, -⟩ := outcome
    cases waits

/-- As long as the handle of a move is not complete, the first mover of the actor holds it and heads
for where the actor was sent. -/
theorem Called.heads {k : WaitHandle} (waits : reply.wait = some k) {w'' : World Float32 B}
    (onward : Onward (moving B) w' w'') (going : w''.waits.isComplete k = false) :
    ∃ first m, w'.first? e .mover = some first ∧ w''.first? e .mover = some first ∧
      w''.cell? (e, first) = some (some (.mover m)) ∧ m.done = some k ∧ m.target = goal args := by
  obtain ⟨-, rfl, first, sent⟩ := called.sent behaved h waits
  obtain ⟨easing, reslotted⟩ := sent.mover
  have there : w'.cell? (e, first) = some (some (.mover (.start (goal args)
      (HostFunctions.float args 4) easing (some (.issued w.waits.issued.size))))) := by
    rw [World.cell?, reslotted.here]
    rfl
  have moment' := called.moment h
  have booked' := moment'.booked behaved
  have had : (holder B w.waits.issued.size (e, first) (goal args)).Had (moving B) [] w' := by
    refine ⟨⟨Nat.le_of_eq sent.issued.symm, fun x hx => absurd hx List.not_mem_nil,
      fun x hx => absurd hx List.not_mem_nil,
      fun y c present slot _ holds => ?_⟩, booked'.2⟩
    have here : y = (e, first) :=
      booked'.1.ledger.single ⟨c, present, holds⟩ ⟨_, .inl there, rfl⟩
    subst here
    rcases present with cell | executing
    · cases there.symm.trans cell
      exact ⟨rfl, _, rfl, rfl⟩
    · cases executing
  have had'' := (kept_holder behaved).lasting.onward onward had
  have moment'' := moment'.onward onward
  obtain ⟨x, c, present, holds⟩ :=
    (moment''.booked behaved).1.ledger.kept w.waits.issued.size had''.1.issued going
  rcases present with cell | executing
  · obtain ⟨slot, hslot, hc⟩ := Option.map_eq_some_iff.1 cell
    obtain ⟨rfl, m, rfl, aim⟩ := had''.1.each x c (.inl cell) slot hslot holds
    refine ⟨first, m, sent.first, ?_, cell, holds, aim⟩
    exact onward.first? moment' sent.first (World.isSome_slots?_of_slot? hslot)
  · cases executing

/-- The handle of an earlier move is complete when the actor is sent somewhere else, if the actor is
active or has been switched off itself. -/
theorem Called.earlier_complete {k : WaitHandle} (waits : reply.wait = some k)
    (onward : Onward (moving B) w' v) (later : Called v e args' reply' v')
    (on : v.isActive e = true ∨ v.SwitchedOff e) : v'.waits.isComplete k = true := by
  by_contra going
  have turn : Turn (moving B) v v' := later.turn (WithMoves.move fun reply => .done reply)
  obtain ⟨first, m, -, isFirst, there, holds, -⟩ := called.heads behaved h waits
    (onward.tail turn) (by simpa using going)
  obtain ⟨-, rfl, _, sent⟩ := called.sent behaved h waits
  have before := (called.moment h).onward onward
  have outcome := later.cases behaved before
  rcases on with active | off
  · -- the mover holds the handle that the later call has issued
    rw [if_pos active] at outcome
    obtain ⟨-, first', sent'⟩ := outcome
    cases sent'.first.symm.trans isFirst
    obtain ⟨easing, reslotted⟩ := sent'.mover
    rw [World.cell?, reslotted.here] at there
    cases there
    have fewer : w'.waits.issued.size ≤ v.waits.issued.size :=
      ((kept_booked behaved _).lasting.onward onward
        (((called.moment h).booked behaved).since (Nat.le_refl _))).1.issued
    have same : v.waits.issued.size = w.waits.issued.size :=
      WaitHandle.issued.inj (Option.some.inj holds)
    rw [sent.issued, same] at fewer
    exact absurd fewer (Nat.not_succ_le_self _)
  · -- an actor that is switched off has no mover that holds a handle
    have resting : v.isActive e ≠ true := fun active =>
      World.not_switchedOff_of_isActive active off
    rw [if_neg resting] at outcome
    have placed := (World.sameLinks_placeInWorld v e (.position (goal args'))).onlyPlaces
    have off' : v'.SwitchedOff e := by
      rw [outcome.2, World.SwitchedOff, placed.actor? e]
      exact off
    exact (before.onward (.single turn)).not_switchedOff behaved there (holds ▸ rfl) off'

end Moving

section Steering

variable (behaved : SteeringBehavior B) (h : AtMoment (steering B) w)
include behaved h

/-- Where movers are retargeted by moves only, the first mover of an actor that has been sent
somewhere heads there as long as no other handle is issued. -/
theorem World.SentOff.keeps_heading {first : Nat} {target : Vec3 Float32} {duration : Float32}
    (sent : w.SentOff w' e first target duration) (turn : Turn (steering B) w w')
    {w'' : World Float32 B} (onward : Onward (steering B) w' w'')
    (last : w''.waits.issued.size = w'.waits.issued.size) (there : (w''.slots? e).isSome) :
    w''.first? e .mover = some first ∧
      ∃ m, w''.cell? (e, first) = some (some (.mover m)) ∧ m.target = target := by
  have moment' := h.onward (.single turn)
  have fitting := moment'.fitScheduler behaved.react behaved.observe
  obtain ⟨easing, reslotted⟩ := sent.mover
  have had : (heading B w'.waits.issued.size (e, first) target).Had (steering B) [] w' := by
    refine ⟨⟨Nat.le_refl _, fun x hx => ?_, fun x hx => (nomatch hx), fun y c present slot _ _ hy =>
      ?_⟩, fitting⟩
    · cases List.mem_singleton.1 hx
      exact .of_slot? reslotted.here
    · subst hy
      rcases present with cell | executing
      · rw [World.cell?, reslotted.here] at cell
        cases cell
        exact ⟨_, rfl, rfl⟩
      · cases executing
  have had'' := (kept_heading behaved).lasting.onward onward had
  have isFirst := onward.first? moment' sent.first there
  refine ⟨isFirst, ?_⟩
  obtain ⟨slot, hslot, -⟩ := Option.map_eq_some_iff.1 (World.first?_eq_some_iff.1 isFirst).1
  obtain ⟨c, hc⟩ := Option.isSome_iff_exists.1
    ((moment'.onward onward).rested (e, first) slot hslot).1
  have cell : w''.cell? (e, first) = some (some c) := by
    rw [World.cell?, hslot, Option.map_some, hc]
  obtain ⟨m, rfl, aim⟩ := had''.1.each (e, first) c (.inl cell) slot hslot last rfl
  exact ⟨m, cell, aim⟩

end Steering

end Calls

/-! ## Moves in place of others -/

/-- How an actor is sent somewhere by a call. -/
structure Supersedes {B : Type} [Behavior Float32 B] (w : World Float32 B) (e : EntityId)
    (args : List Value) (reply : Reply) (w' : World Float32 B) : Prop where
  called : Called w e args reply w'
  /-- An active actor is sent on its way and the call answers a handle. Another one is put where it
  is to be, and there is nothing to wait for. -/
  answered : if w.isActive e
    then reply = .waiting (.issued w.waits.issued.size) ∧
      ∃ first, w.SentOff w' e first (goal args) (HostFunctions.float args 4)
    else reply = .void ∧ w' = w.placeInWorld e (.position (goal args))
  /-- What was answered when the actor was sent somewhere before is complete. -/
  earlier : w.isActive e = true ∨ w.SwitchedOff e → ∀ v args' reply' v' k,
    AtMoment (moving B) v → Called v e args' reply' v' → Onward (moving B) v' w →
      reply'.wait = some k → w'.waits.isComplete k = true
  /-- It is the same mover that was sent before. -/
  mover : ∀ v args' reply' v', AtMoment (moving B) v → Called v e args' reply' v' →
    Onward (moving B) v' w → reply'.wait.isSome → reply.wait.isSome →
      v'.first? e .mover = w'.first? e .mover
  /-- As long as the new handle is not complete, that mover holds it and heads for the new point. -/
  heads : ∀ k, reply.wait = some k → ∀ w'', Onward (moving B) w' w'' →
    w''.waits.isComplete k = false → ∃ first m, w''.first? e .mover = w'.first? e .mover ∧
      w'.first? e .mover = some first ∧ w''.cell? (e, first) = some (some (.mover m)) ∧
      m.done = some k ∧ m.target = goal args
  /-- Afterwards as well, if movers are retargeted by moves only, until there is another move. -/
  stays : reply.wait.isSome → SteeringBehavior B → AtMoment (steering B) w →
    ∀ w'', Onward (steering B) w' w'' → w''.waits.issued.size = w'.waits.issued.size →
      (w''.slots? e).isSome → ∃ first m, w''.first? e .mover = some first ∧
        w''.cell? (e, first) = some (some (.mover m)) ∧ m.target = goal args

/-- At any moment an actor can be sent somewhere, and the move takes the place of all earlier ones,
unless the actor is active by itself below one that is not. -/
theorem a_move_supersedes_earlier_ones {B : Type} [Behavior Float32 B]
    (behaved : MovingBehavior B) {w : World Float32 B} (h : AtMoment (moving B) w) {e : EntityId}
    {args : List Value} (found : w.find? (HostFunctions.text args 0) = some e) :
    ∃ reply w', Supersedes w e args reply w' := by
  obtain ⟨reply, w', called, answered⟩ := exists_called behaved h found
  have turn : Turn (moving B) w w' := called.turn (WithMoves.move fun reply => .done reply)
  refine ⟨reply, w', called, answered, fun on v args' reply' v' k hv earlier onward waits => ?_,
    fun v args' reply' v' hv earlier onward waits waits' => ?_,
    fun k waits w'' onward going => ?_, fun waits steers hs w'' onward last there => ?_⟩
  · exact earlier.earlier_complete behaved hv waits onward called on
  · obtain ⟨k, hk⟩ := Option.isSome_iff_exists.1 waits
    obtain ⟨k', hk'⟩ := Option.isSome_iff_exists.1 waits'
    obtain ⟨-, -, first, sent⟩ := earlier.sent behaved hv hk
    obtain ⟨-, -, first', sent'⟩ := called.sent behaved h hk'
    obtain ⟨easing, reslotted⟩ := sent'.mover
    rw [sent.first]
    have there := World.isSome_slots?_of_slot? reslotted.here
    exact (Onward.first? (earlier.moment hv) (onward.tail turn) sent.first there).symm
  · obtain ⟨first, m, isFirst, isFirst', there, holds, aim⟩ :=
      called.heads behaved h waits onward going
    exact ⟨first, m, isFirst'.trans isFirst.symm, isFirst, there, holds, aim⟩
  · obtain ⟨k, hk⟩ := Option.isSome_iff_exists.1 waits
    obtain ⟨-, -, first, sent⟩ := called.sent behaved h hk
    obtain ⟨isFirst, m, cell, aim⟩ := sent.keeps_heading steers hs
      (called.turn (WithMoves.move fun reply => .done reply)) onward last there
    exact ⟨first, m, isFirst, cell, aim⟩

/-- The arguments that send an actor to a point, and to another one. -/
def sendThere (name : String) : List Value :=
  [.string name, .float 1, .float 2, .float 3, .float 4]

def sendBack (name : String) : List Value :=
  [.string name, .float 4, .float 3, .float 2, .float 1]

/-- The check that a call answers, and how. -/
def calls (w : World Float32 Empty) (e : EntityId) (args : List Value)
    (check : Reply → World Float32 Empty → Bool) : Bool :=
  decide (w.find? (HostFunctions.text args 0) = some e) &&
    match (HostFunctions.moveActorTo args).run
      (SceneM.performWithin (SceneM.respond SceneM.hookLimit)) w with
    | .ok reply w' => check reply w'
    | .error _ _ => false

/-- A call that passes a check answers something that passes it. -/
theorem exists_called_of_calls {w : World Float32 Empty} {e : EntityId} {args : List Value}
    {check : Reply → World Float32 Empty → Bool} (h : calls w e args check = true) :
    ∃ reply w', Called w e args reply w' ∧ check reply w' = true := by
  unfold calls at h
  rw [Bool.and_eq_true, decide_eq_true_eq] at h
  obtain ⟨found, h⟩ := h
  split at h
  · rename_i reply w' hrun
    exact ⟨reply, w', ⟨found, hrun⟩, h⟩
  · cases h

/-- An actor that is on its way when it is sent somewhere else: what it was answered first is
complete then. -/
theorem a_move_supersedes_earlier_ones_turning :
    MovingBehavior Empty ∧ ∃ v w : World Float32 Empty, ∃ reply, AtMoment (moving Empty) v ∧
      Called v ⟨0⟩ (sendThere "a") reply w ∧ reply.wait = some (.issued 0) ∧
      w.waits.isComplete (.issued 0) = false ∧ ∃ reply' w',
        Supersedes w ⟨0⟩ (sendBack "a") reply' w' ∧ w'.waits.isComplete (.issued 0) = true := by
  have behaved : MovingBehavior Empty := ⟨fun b => b.elim, fun _ => .done ()⟩
  have run : (Program.edit (.spawn (.named "a"))).passes .bare fun _ v =>
      calls v ⟨0⟩ (sendThere "a") fun reply w => decide (reply.wait = some (.issued 0)) &&
        !w.waits.isComplete (.issued 0) && w.isActive ⟨0⟩ &&
        decide (w.find? "a" = some ⟨0⟩) := by decide +kernel
  obtain ⟨_, v, hrun, checked⟩ := Program.exists_of_passes run
  obtain ⟨reply, w, called, checked⟩ := exists_called_of_calls checked
  simp only [Bool.and_eq_true, decide_eq_true_eq, Bool.not_eq_true'] at checked
  obtain ⟨⟨⟨waits, going⟩, active⟩, found⟩ := checked
  have fit : moving Empty _ (Program.edit (.spawn (.named "a"))) :=
    WithMoves.of_only ⟨trivial, fun _ => trivial⟩
  have hv : AtMoment (moving Empty) v := Reachable.moment (.step (.empty rfl rfl rfl rfl)
    (.program fit hrun))
  obtain ⟨reply', w', supersedes⟩ : ∃ reply' w', Supersedes w ⟨0⟩ (sendBack "a") reply' w' :=
    a_move_supersedes_earlier_ones behaved (called.moment hv) found
  exact ⟨behaved, v, w, reply, hv, called, waits, going, reply', w', supersedes,
    supersedes.earlier (.inl active) v _ reply w _ hv called .refl waits⟩

/-- An actor and another one below it. -/
def company : Program Float32 Empty EntityId := do
  let _ ← Program.edit (.spawn (.named "stage"))
  Program.edit (.spawn { ActorSpec.named "child" with parent := some ⟨0⟩ })

/-- An actor is sent somewhere, the one above it is switched off, and the actor is sent somewhere
else. What was answered first is not complete. -/
theorem earlier_moves_may_stay_open : ¬ ∀ w : World Float32 Empty, AtMoment (moving Empty) w →
    ∀ e args reply w', Called w e args reply w' → ∀ v args' reply' v' k,
      AtMoment (moving Empty) v → Called v e args' reply' v' → Onward (moving Empty) v' w →
        reply'.wait = some k → w'.waits.isComplete k = true := by
  intro claim
  have run : company.passes .bare fun _ v =>
      calls v ⟨1⟩ (sendThere "child") fun reply v => decide (reply.wait = some (.issued 0)) &&
        (Program.request (.setActive ⟨0⟩ false)).passes v fun _ w =>
          calls w ⟨1⟩ (sendBack "child") fun _ w => !w.waits.isComplete (.issued 0) := by
    decide +kernel
  obtain ⟨_, v, hrun, checked⟩ := Program.exists_of_passes run
  obtain ⟨reply, v', called, checked⟩ := exists_called_of_calls checked
  rw [Bool.and_eq_true, decide_eq_true_eq] at checked
  obtain ⟨waits, checked⟩ := checked
  obtain ⟨_, w, hswitch, checked⟩ := Program.exists_of_passes checked
  obtain ⟨reply', w', later, going⟩ := exists_called_of_calls checked
  have fit : moving Empty _ company :=
    WithMoves.of_only ⟨trivial, fun _ => ⟨trivial, fun _ => trivial⟩⟩
  have fit' : moving Empty _ (Program.request (.setActive ⟨0⟩ false)) :=
    WithMoves.of_only ⟨trivial, fun _ => trivial⟩
  have hv : AtMoment (moving Empty) v := Reachable.moment (.step (.empty rfl rfl rfl rfl)
    (.program fit hrun))
  have onward : Onward (moving Empty) v' w := .single (.step (.program fit' hswitch))
  have complete := claim w ((called.moment hv).onward onward) _ _ _ _ later v _ _ _ _ hv called
    onward waits
  rw [complete] at going
  cases going

end SheepScene
