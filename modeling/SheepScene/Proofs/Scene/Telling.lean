import SheepScene.Proofs.Scene.Dues
import SheepScene.Proofs.Scene.Switches

/-!
# What components are told of their actors

An actor may be switched again while its components are still being told of it: by one of them, by
an observer, or by anything that these set off. A component that stays enabled all along is told of
every switch exactly once, and of none before it is made (`every_switch_is_told`). So when all has
been told, it has been told after the last switch what its actor has become, and nothing else if
there was only one switch. But those who switch the actor meanwhile are served first, and a
component may be told of an earlier switch last (`last_telling_may_be_stale`).
-/

set_option autoImplicit false

namespace SheepScene

variable {K B : Type}

/-! ## Switches and tellings -/

/-- What the journal shows of a component and its actor: the actor is switched on or off, or the
component begins to act on being told so. -/
inductive Deed where
  | switched (on : Bool)
  | told (on : Bool)

namespace Deed

/-- The switches of an actor, oldest first. -/
def switches (l : List Deed) : List Bool :=
  l.filterMap fun
    | .switched on => some on
    | .told _ => none

/-- What a component was told, oldest first. -/
def tellings (l : List Deed) : List Bool :=
  l.filterMap fun
    | .switched _ => none
    | .told on => some on

/-- The switches in one stretch of deeds after another. -/
theorem switches_append (l l' : List Deed) : switches (l ++ l') = switches l ++ switches l' :=
  List.filterMap_append ..

/-- The tellings in one stretch after another. -/
theorem tellings_append (l l' : List Deed) : tellings (l ++ l') = tellings l ++ tellings l' :=
  List.filterMap_append ..

/-- A switch is the last of the switches. -/
@[simp] theorem switches_switched (l : List Deed) (on : Bool) :
    switches (l ++ [.switched on]) = switches l ++ [on] :=
  switches_append l _

/-- A telling is none of the switches. -/
@[simp] theorem switches_told (l : List Deed) (on : Bool) :
    switches (l ++ [.told on]) = switches l :=
  (switches_append l _).trans (List.append_nil _)

/-- A switch is none of the tellings. -/
@[simp] theorem tellings_switched (l : List Deed) (on : Bool) :
    tellings (l ++ [.switched on]) = tellings l :=
  (tellings_append l _).trans (List.append_nil _)

/-- A telling is the last of the tellings. -/
@[simp] theorem tellings_told (l : List Deed) (on : Bool) :
    tellings (l ++ [.told on]) = tellings l ++ [on] :=
  tellings_append l _

/-- What has become of the own state of an actor, unless it was flagged for removal. -/
def stateAfter (state : ActorState) (l : List Deed) : ActorState :=
  match (switches l).getLast? with
  | none => state
  | some on => if on then .active else .inactive

/-- Being told changes nothing about the state of the actor. -/
theorem stateAfter_told (state : ActorState) (l : List Deed) (on : Bool) :
    stateAfter state (l ++ [.told on]) = stateAfter state l := by
  unfold stateAfter
  rw [switches_told]

/-- The last switch decides about it. -/
theorem stateAfter_switched (state : ActorState) (l : List Deed) (on : Bool) :
    stateAfter state (l ++ [.switched on]) = if on then .active else .inactive := by
  unfold stateAfter
  rw [switches_switched, List.getLast?_concat]

end Deed

/-- What a hook tells of a switch. -/
def Hook.switch? : Hook K → Option Bool
  | .enable => some true
  | .disable => some false
  | .update _ | .lateUpdate _ => none

/-- The hook of a switch tells of it. -/
@[simp] theorem Hook.switch?_ofSwitch (on : Bool) :
    (Hook.ofSwitch on : Hook K).switch? = some on := by
  cases on <;> rfl

/-- The hooks of updates tell of no switch. -/
theorem Hook.Updates.switch? {hook : Hook K} (h : hook.Updates) : hook.switch? = none := by
  cases hook with
  | enable | disable => exact absurd h id
  | update | lateUpdate => rfl

/-- What an event is for the component at a place. -/
def Event.deed? (x : EntityId × Nat) : Event K B → Option Deed
  | .actor (.activated e) => if e = x.1 then some (.switched true) else none
  | .actor (.deactivated e) => if e = x.1 then some (.switched false) else none
  | .hook e index .began h => if (e, index) = x then h.switch?.map .told else none
  | _ => none

/-- The event of a switch is a switch for the components of its actor. -/
theorem Event.deed?_switched (x : EntityId × Nat) (e : EntityId) (on : Bool) :
    Event.deed? x (.actor (if on then .activated e else .deactivated e) : Event K B) =
      if e = x.1 then some (.switched on) else none := by
  cases on <;> rfl

/-- A remark is no deed. -/
theorem Event.Remark.deed? {x : EntityId × Nat} {event : Event K B} (h : event.Remark) :
    event.deed? x = none := by
  cases event with
  | actor | hook | echoed => exact absurd h id
  | _ => rfl

/-- An event aside is no deed. -/
theorem Event.Aside.deed? {x : EntityId × Nat} {event : Event K B} (h : event.Aside) :
    event.deed? x = none := by
  cases event with
  | actor event =>
    cases event with
    | activated | deactivated => exact absurd h id
    | _ => rfl
  | hook _ _ stage _ =>
    cases stage with
    | began | deferred => cases h
    | ended => rfl
  | _ => rfl

/-- What a hook that is due tells the component at a place of its actor. -/
def Due.tells? (x : EntityId × Nat) : Due → Option Bool
  | .actor e on => if e = x.1 then some on else none
  | .follow y on => if y = x then some on else none
  | .toggle .. => none

/-- What the component at a place is still to be told of its actor. -/
def Pending.owed (p : Pending) (x : EntityId × Nat) : List Bool :=
  p.due.filterMap (Due.tells? x)

/-- What the hooks tell that were put off. -/
def Slot.waiting (slot : Slot K B) : List Bool :=
  slot.deferred.filterMap Hook.switch?

/-- What the component at a place will be told once it has come to an end. -/
def World.waiting (w : World K B) (x : EntityId × Nat) : List Bool :=
  match w.slot? x.1 x.2 with
  | none => []
  | some slot => slot.waiting

/-! ## Accounts -/

/-- The account of a component: what it was told and what it will be told are the switches and what
it was to be told before them, and it is never told of a switch that was not made. -/
structure Balanced (before after : List Bool) (l : List Deed) : Prop where
  all : ∀ on, (Deed.tellings l).count on + after.count on =
    before.count on + (Deed.switches l).count on
  made : ∀ l' : List Deed, l' <+: l →
    ∀ on, (Deed.tellings l').count on ≤ before.count on + (Deed.switches l').count on

namespace Balanced

variable {before after after' : List Bool} {l : List Deed}

/-- An account without deeds is balanced. -/
theorem nil (before : List Bool) : Balanced before before [] := by
  refine ⟨fun on => Nat.add_comm .., fun l' h on => ?_⟩
  rw [List.prefix_nil.1 h]
  exact Nat.zero_le _

/-- It makes no difference in which order switches are to be told. -/
theorem perm (h : Balanced before after l) (perm : after'.Perm after) :
    Balanced before after' l :=
  ⟨fun on => perm.count_eq on ▸ h.all on, h.made⟩

/-- One more deed, after which the account is even. -/
theorem concat (h : Balanced before after l) {d : Deed} (all : ∀ on,
    (Deed.tellings (l ++ [d])).count on + after'.count on =
      before.count on + (Deed.switches (l ++ [d])).count on) :
    Balanced before after' (l ++ [d]) := by
  refine ⟨all, fun l' hl on => ?_⟩
  rcases List.prefix_concat_iff.1 hl with rfl | hl
  · have := all on
    omega
  · exact h.made l' hl on

/-- With a switch that is made there is one more to be told. -/
theorem switched (h : Balanced before after l) (on : Bool) :
    Balanced before (on :: after) (l ++ [.switched on]) := by
  refine h.concat fun b => ?_
  have := h.all b
  rw [Deed.tellings_switched, Deed.switches_switched, List.count_append, List.count_cons,
    List.count_singleton]
  omega

/-- With a telling there is one less to be told. -/
theorem told {on : Bool} (h : Balanced before (on :: after) l) :
    Balanced before after (l ++ [.told on]) := by
  refine h.concat fun b => ?_
  have := h.all b
  rw [List.count_cons] at this
  rw [Deed.tellings_told, Deed.switches_told, List.count_append, List.count_singleton]
  omega

/-- The component is told of a switch after it is made. -/
theorem later (h : Balanced before after l) {pre post : List Deed} (hl : l = pre ++ post)
    (on : Bool) : (Deed.switches post).count on ≤
      (Deed.tellings post).count on + after.count on := by
  subst hl
  have all := h.all on
  have made := h.made pre (List.prefix_append ..) on
  rw [Deed.tellings_append, Deed.switches_append, List.count_append, List.count_append] at all
  omega

end Balanced

namespace World

/-- The account of the component at a place from an earlier world on, when it is in a slot that is
enabled, some more is owed to it, and it is known how the account starts. -/
structure Account (x : EntityId × Nat) (base : World K B) (start : List Deed) (w : World K B)
    (owed : List Bool) (slot : Slot K B) (l : List Deed) : Prop where
  there : w.slot? x.1 x.2 = some slot
  enabled : slot.enabled = true
  starts : start <+: l
  journal : w.noted (Event.deed? x) = base.noted (Event.deed? x) ++ l
  balanced : Balanced (base.waiting x) (slot.waiting ++ owed) l
  state : ∀ a, w.actor? x.1 = some a → ∃ a₀, base.actor? x.1 = some a₀ ∧
    (a.state = .destroyed ∨ a.state = Deed.stateAfter a₀.state l)

/-- There is such an account, unless the actor has gone. -/
structure Audited (x : EntityId × Nat) (base : World K B) (start : List Deed) (owed : List Bool)
    (w : World K B) : Prop where
  known : x.1.index < w.entities.size
  account : (w.entity? x.1).isSome → ∃ slot l, Account x base start w owed slot l

variable {x : EntityId × Nat} {base w w' : World K B} {owed owed' : List Bool} {slot : Slot K B}
  {start l : List Deed}

/-- The actor is switched, and the component is to be told. -/
theorem Account.switch {a : Actor K} {on : Bool} {state : ActorState}
    (h : Account x base start w owed slot l) (ha : w.actor? x.1 = some a)
    (hstate : SceneM.switched a.state on = some state) :
    Account x base start ((w.modifyActor x.1 fun a => { a with state }).record
        (.actor (if on then .activated x.1 else .deactivated x.1)))
      (on :: owed) slot (l ++ [.switched on]) := by
  refine ⟨?_, h.enabled, h.starts.trans (List.prefix_append ..), ?_, ?_, ?_⟩
  · change (w.modifyActor x.1 fun a => { a with state }).slot? x.1 x.2 = some slot
    rw [slot?, slots?_modifyActor]
    exact h.there
  · rw [noted_record, Event.deed?_switched, if_pos rfl, ← List.append_assoc, ← h.journal]
    rfl
  · exact (h.balanced.switched on).perm List.perm_middle
  · intro b hb
    change (w.modifyActor x.1 fun a => { a with state }).actor? x.1 = some b at hb
    rw [actor?_modifyActor, if_pos rfl, ha] at hb
    cases hb
    obtain ⟨a₀, ha₀, -⟩ := h.state a ha
    refine ⟨a₀, ha₀, .inr ?_⟩
    rw [Deed.stateAfter_switched]
    exact (SceneM.switched_eq_some hstate).1

namespace Audited

/-- A change keeps the account when it keeps it for an actor that is still there. -/
theorem change (h : Audited x base start owed w) (precedes : w.Precedes w')
    (step : ∀ {slot l}, Account x base start w owed slot l →
      ∃ slot' l', Account x base start w' owed' slot' l') :
    Audited x base start owed' w' := by
  refine ⟨Nat.lt_of_lt_of_le h.known precedes.size, fun there => ?_⟩
  obtain ⟨slot, l, account⟩ := h.account (precedes.entity?_isSome h.known there)
  exact step account

/-- Nothing is known of a component that has gone. -/
theorem gone (h : Audited x base start owed w) (none : w.slot? x.1 x.2 = none) :
    Audited x base start owed' w :=
  h.change (.refl w) fun account => nomatch none.symm.trans account.there

/-- Nothing happens to a component when no switch is touched. -/
theorem unswitched (h : Audited x base start owed w) (unswitched : w.Unswitched w')
    (noted : w'.noted (Event.deed? x) = w.noted (Event.deed? x)) :
    Audited x base start owed w' := by
  have precedes := unswitched.precedes
  refine ⟨Nat.lt_of_lt_of_le h.known precedes.size, fun there => ?_⟩
  obtain ⟨slot, l, account⟩ := h.account (precedes.entity?_isSome h.known there)
  have still : (w'.slot? x.1 x.2).isSome :=
    precedes.slot?_isSome there (by rw [account.there, Option.isSome_some])
  obtain ⟨slot', hslot'⟩ := Option.isSome_iff_exists.1 still
  obtain ⟨enabled, -⟩ := unswitched.same x slot slot' account.there hslot'
  have waiting : slot'.waiting = slot.waiting := by
    rcases unswitched.slot x slot' hslot' with ⟨before, hbefore, -, deferred⟩ | ⟨none, -⟩
    · cases hbefore.symm.trans account.there
      rw [Slot.waiting, deferred]
      rfl
    · cases none.symm.trans account.there
  refine ⟨slot', l, hslot', enabled.trans account.enabled, account.starts,
    noted.trans account.journal, ?_, ?_⟩
  · rw [waiting]
    exact account.balanced
  · intro a' ha'
    obtain ⟨a, ha, later⟩ := unswitched.states.state x.1 a' h.known ha'
    obtain ⟨a₀, ha₀, before⟩ := account.state a ha
    refine ⟨a₀, ha₀, later.elim .inl fun same => ?_⟩
    rw [same]
    exact before

/-- What is written into the journal and is none of its deeds. -/
theorem record (h : Audited x base start owed w) {event : Event K B}
    (aside : event.deed? x = none) : Audited x base start owed (w.record event) :=
  h.unswitched (.of_entities rfl) (noted_record_aside w aside)

/-- Another slot is changed. -/
theorem elsewhere (h : Audited x base start owed w) {y : EntityId × Nat} (other : x ≠ y)
    (f : Slot K B → Slot K B) : Audited x base start owed (w.modifySlot y.1 y.2 f) := by
  refine h.change (.modifySlot w y.1 y.2 f) fun {slot l} account => ⟨slot, l, ?_⟩
  refine { account with there := ?_, state := fun a ha => account.state a ?_ }
  · rw [slot?_modifySlot, if_neg other]
    exact account.there
  · rwa [actor?_modifySlot] at ha

/-- The slot itself is changed, and what waits in it. -/
theorem modifySlot (h : Audited x base start owed w) {f : Slot K B → Slot K B}
    (enabled : ∀ slot, (f slot).enabled = slot.enabled)
    (waiting : ∀ slot, w.slot? x.1 x.2 = some slot →
      ((f slot).waiting ++ owed').Perm (slot.waiting ++ owed)) :
    Audited x base start owed' (w.modifySlot x.1 x.2 f) := by
  refine h.change (.modifySlot w x.1 x.2 f) fun {slot l} account => ⟨f slot, l, ?_,
    (enabled slot).trans account.enabled, account.starts, account.journal, ?_, ?_⟩
  · rw [slot?_modifySlot, if_pos rfl, account.there, Option.map_some]
  · exact account.balanced.perm (waiting slot account.there)
  · intro a ha
    rw [actor?_modifySlot] at ha
    exact account.state a ha

/-- The component begins to act on a hook that it is owed, or on one that tells it nothing. -/
theorem told {hook : Hook K} (h : Audited x base start (hook.switch?.toList ++ owed) w) :
    Audited x base start owed (w.record (.hook x.1 x.2 .began hook)) := by
  cases hswitch : hook.switch? with
  | none =>
    rw [hswitch] at h
    exact h.record (by rw [Event.deed?, if_pos rfl, hswitch, Option.map_none])
  | some on =>
    rw [hswitch] at h
    refine h.change (.record w _) fun {slot l} account => ⟨slot, l ++ [.told on], ?_⟩
    refine { account with starts := ?_, journal := ?_, balanced := ?_, state := ?_ }
    · exact account.starts.trans (List.prefix_append ..)
    · rw [noted_record, account.journal, Event.deed?, if_pos rfl, hswitch, List.append_assoc]
      rfl
    · exact (account.balanced.perm List.perm_middle.symm).told
    · simp only [Deed.stateAfter_told]
      exact account.state

/-- An actor is switched, and its components are to be told. -/
theorem switch {e : EntityId} {a : Actor K} {on : Bool} {state : ActorState}
    (h : Audited x base start owed w) (ha : w.actor? e = some a)
    (hstate : SceneM.switched a.state on = some state) :
    Audited x base start ((Due.tells? x (.actor e on)).toList ++ owed)
      ((w.modifyActor e fun a => { a with state }).record
        (.actor (if on then .activated e else .deactivated e))) := by
  refine h.change ((Precedes.switch ha hstate).trans (.record _ _)) fun {s l} account => ?_
  by_cases here : e = x.1
  · subst here
    rw [Due.tells?, if_pos rfl, Option.toList_some, List.singleton_append]
    exact ⟨s, l ++ [.switched on], account.switch ha hstate⟩
  · rw [Due.tells?, if_neg here]
    refine ⟨s, l, { account with there := ?_, journal := ?_, state := fun b hb => ?_ }⟩
    · change (w.modifyActor e fun a => { a with state }).slot? x.1 x.2 = some s
      rw [slot?, slots?_modifyActor]
      exact account.there
    · rw [noted_record_aside _ ((Event.deed?_switched x e on).trans (if_neg here)),
        ← account.journal]
      rfl
    · change (w.modifyActor e fun a => { a with state }).actor? x.1 = some b at hb
      rw [actor?_modifyActor, if_neg (Ne.symm here)] at hb
      exact account.state b hb

end Audited

/-- Among the components of an actor each place comes up once. -/
theorem filterMap_follow (x : EntityId × Nat) (e : EntityId) (on : Bool) (n : Nat) :
    ((List.range n).map fun index => Due.follow (e, index) on).filterMap (Due.tells? x) =
      if e = x.1 ∧ x.2 < n then [on] else [] := by
  induction n with
  | zero =>
    rw [if_neg fun h => Nat.not_lt_zero _ h.2]
    rfl
  | succ n ih =>
    have last : [Due.follow (e, n) on].filterMap (Due.tells? x) =
        if (e, n) = x then [on] else [] := by
      simp only [List.filterMap_cons, List.filterMap_nil, Due.tells?]
      split <;> simp_all
    rw [List.range_succ, List.map_append, List.filterMap_append, ih, List.map_singleton, last]
    obtain ⟨y, i⟩ := x
    simp only [Prod.mk.injEq]
    by_cases here : e = y
    · by_cases latest : n = i
      · simp [here, latest]
      · have : i < n ↔ i < n + 1 := by omega
        simp [here, latest, this]
    · simp [here]

/-- The account at a place, with what is due. The component itself is not switched. -/
structure Booked (x : EntityId × Nat) (base : World K B) (start : List Deed) (p : Pending)
    (w : World K B) : Prop where
  steady : ∀ on, .toggle x on ∉ p.due
  account : Audited x base start (p.owed x) w

/-- What is owed when one more hook is due. -/
theorem owed_owe (p : Pending) (d : Due) (x : EntityId × Nat) :
    (p.owe d).owed x = (d.tells? x).toList ++ p.owed x := by
  simp only [Pending.owed, Pending.owe, List.filterMap_eq_flatMap_toList, List.flatMap_cons]

/-- What is owed to the component when a hook is sent to a place. -/
theorem booked_of_sent {p : Pending} {y : EntityId × Nat} {hook : Hook K}
    (sent : Sent (Booked x base start) p y hook w) : (∀ on, .toggle x on ∉ p.due) ∧
      Audited x base start ((if y = x then hook.switch?.toList else []) ++ p.owed x) w := by
  cases sent with
  | follow on h =>
    refine ⟨fun on' hmem => h.steady on' (List.mem_cons_of_mem _ hmem), ?_⟩
    have account := h.account
    rw [owed_owe, Due.tells?] at account
    rw [Hook.switch?_ofSwitch]
    split
    · rwa [if_pos (by assumption)] at account
    · rwa [if_neg (by assumption)] at account
  | toggle on h =>
    refine ⟨fun on' hmem => h.steady on' (List.mem_cons_of_mem _ hmem), ?_⟩
    have account := h.account
    rw [owed_owe] at account
    rw [if_neg]
    · exact account
    · rintro rfl
      exact h.steady on (List.mem_cons_self ..)
  | update updates _ _ h =>
    refine ⟨h.steady, ?_⟩
    rw [updates.switch?]
    split <;> exact h.account

variable [Scalar K] [Behavior K B]

/-- The account of a component is kept in order by everything that a scene does. -/
theorem owed_booked (x : EntityId × Nat) (base : World K B) (start : List Deed) :
    Owed (Scope.everything K B) (fun w => w.slotEnabled x.1 x.2) (fun _ => False)
      (Booked x base start) where
  edit edit _ h := ⟨h.steady, h.account.unswitched (.apply _ edit)
    (noted_apply (fun _ => Event.Remark.deed?) _ edit)⟩
  record event aside h := ⟨h.steady, h.account.record aside.deed?⟩
  rest _ _ h := ⟨h.steady, h.account.unswitched (.of_entities rfl) rfl⟩
  reclaim e h := ⟨h.steady, h.account.unswitched (.reclaim _ e) (noted_reclaim _ e)⟩
  switch ha hstate h := by
    refine ⟨fun on hmem => h.steady on (Pending.mem_of_owe hmem nofun), ?_⟩
    rw [owed_owe]
    exact h.account.switch ha hstate
  recount {p w e on} h := by
    refine ⟨fun on' hmem => ?_, h.account.change (.refl w) fun {slot l} account => ⟨slot, l, ?_⟩⟩
    · rcases List.mem_append.1 hmem with hmem | hmem
      · obtain ⟨_, _, same⟩ := List.mem_map.1 hmem
        cases same
      · exact h.steady on' (List.mem_cons_of_mem _ hmem)
    · have there : x.2 < w.componentCount x.1 := lt_componentCount account.there
      have owed : (p.oweAll ((List.range (w.componentCount e)).map fun index =>
          .follow (e, index) on)).owed x = (p.owe (.actor e on)).owed x := by
        rw [owed_owe, Pending.owed, Pending.oweAll, List.filterMap_append, filterMap_follow,
          Due.tells?]
        by_cases here : e = x.1
        · subst here
          rw [if_pos ⟨rfl, there⟩, if_pos rfl]
          rfl
        · rw [if_neg fun h => here h.1, if_neg here]
          rfl
      rw [owed]
      exact account
  spare {p w y on} disabled h := by
    refine ⟨fun on' hmem => h.steady on' (List.mem_cons_of_mem _ hmem), ?_⟩
    refine h.account.change (.refl w) fun {slot l} account => ⟨slot, l, ?_⟩
    rw [owed_owe, Due.tells?, if_neg] at account
    · exact account
    · rintro rfl
      rw [slotEnabled_of_slot? account.there, account.enabled] at disabled
      cases disabled
  toggle {p w y slot on} hslot changes passes h := by
    have other : x ≠ y := by
      rintro rfl
      obtain ⟨_, _, account⟩ := h.account.account (isSome_entity?_of_slot? hslot)
      cases hslot.symm.trans account.there
      -- it was enabled, so that it would be disabled now
      have disabled : (w.modifySlot x.1 x.2 fun slot => { slot with enabled := on }).slot? x.1 x.2
          = some { slot with enabled := on } := by
        rw [slot?_modifySlot, if_pos rfl, hslot, Option.map_some]
      rw [slotEnabled_of_slot? disabled] at passes
      exact changes (account.enabled.trans passes.symm)
    refine ⟨fun on' hmem => h.steady on' (Pending.mem_of_owe hmem fun same => ?_), ?_⟩
    · cases same
      exact other rfl
    · rw [owed_owe]
      exact h.account.elsewhere other _
  gone {p w y hook} none sent := by
    obtain ⟨steady, account⟩ := booked_of_sent sent
    refine ⟨steady, ?_⟩
    by_cases here : y = x
    · subst here
      exact account.gone none
    · rwa [if_neg here] at account
  putOff {p w y hook slot} hslot _ sent := by
    obtain ⟨steady, account⟩ := booked_of_sent sent
    refine ⟨steady, Audited.record ?_ rfl⟩
    by_cases here : y = x
    · subst here
      rw [if_pos rfl] at account
      refine account.modifySlot (fun _ => rfl) fun slot _ => ?_
      simp only [Slot.waiting, List.filterMap_eq_flatMap_toList, List.flatMap_append,
        List.flatMap_singleton, List.append_assoc]
      exact .refl _
    · rw [if_neg here] at account
      exact account.elsewhere (Ne.symm here) _
  take {p w y hook slot component} hslot _ _ sent := by
    obtain ⟨steady, account⟩ := booked_of_sent sent
    refine ⟨steady, ?_⟩
    by_cases here : y = x
    · subst here
      rw [if_pos rfl] at account
      have taken : Audited y base start (hook.switch?.toList ++ p.owed y)
          (w.setComponent y.1 y.2 none) :=
        account.modifySlot (fun _ => rfl) fun _ _ => .refl _
      exact taken.told
    · rw [if_neg here] at account
      refine (account.elsewhere (Ne.symm here) _).record ?_
      rw [Event.deed?, if_neg here]
  resume {p w y slot next deferred} hslot waiting h := by
    refine ⟨h.steady, ?_⟩
    by_cases here : y = x
    · subst here
      have resumed : Audited y base start (next.switch?.toList ++ p.owed y)
          (w.modifySlot y.1 y.2 fun slot => { slot with deferred }) := by
        refine h.account.modifySlot (fun _ => rfl) fun slot' hslot' => ?_
        cases hslot'.symm.trans hslot
        simp only [Slot.waiting, waiting, List.filterMap_eq_flatMap_toList, List.flatMap_cons,
          List.append_assoc]
        exact List.perm_append_comm_assoc ..
      exact resumed.told
    · refine (h.account.elsewhere (Ne.symm here) _).record ?_
      rw [Event.deed?, if_neg here]
  put {p w y slot} component _ _ h := by
    refine ⟨h.steady, ?_⟩
    by_cases here : y = x
    · subst here
      exact h.account.modifySlot (fun _ => rfl) fun _ _ => .refl _
    · exact h.account.elsewhere (Ne.symm here) _
  drop component _ h := ⟨h.steady, h.account.unswitched
    (.of_entities (by rw [dropComponent_eq])) (noted_dropComponent _ component)⟩
  told _ _ _ _ apart _ _ := absurd apart id

end World

/-! ## Switching an actor -/

/-- An actor is switched, and the component at a place is enabled all along: it is enabled before
and after, and the run comes to its end although it would give up if anything was set off while the
component was disabled. A component that is disabled is told at once, so that nothing escapes the
watch. -/
structure EnabledThroughout [Scalar K] [Behavior K B] (x : EntityId × Nat) (on : Bool)
    (depth : Nat) (w w' : World K B) : Prop where
  before : w.slotEnabled x.1 x.2 = true
  watched : SceneM.performWith (SceneM.respondWhile (fun v => v.slotEnabled x.1 x.2) depth)
    (.setActive x.1 on) w = .ok () w'
  after : w'.slotEnabled x.1 x.2 = true

/-- How the component at a place is told of its actor from one world to another, when the journal
has certain deeds in between. -/
structure Informed (x : EntityId × Nat) (w w' : World K B) (l : List Deed) : Prop where
  journal : w'.noted (Event.deed? x) = w.noted (Event.deed? x) ++ l
  /-- It is told of every switch once. -/
  once : (Deed.tellings l ++ w'.waiting x).Perm (w.waiting x ++ Deed.switches l)
  /-- It is told of a switch after it is made. -/
  later : ∀ pre post, l = pre ++ post → ∀ on, (Deed.switches post).count on ≤
    (Deed.tellings post).count on + (w'.waiting x).count on
  /-- The last switch stays, unless the actor is flagged for removal. -/
  state : ∀ a, w'.actor? x.1 = some a → ∃ a₀, w.actor? x.1 = some a₀ ∧
    (a.state = .destroyed ∨ a.state = Deed.stateAfter a₀.state l)

section Informed

variable {x : EntityId × Nat} {w w' : World K B} {l : List Deed}

/-- What waits for a component is written in its slot. -/
theorem World.waiting_of_slot? {slot : Slot K B} (h : w.slot? x.1 x.2 = some slot) :
    w.waiting x = slot.waiting := by
  rw [World.waiting, h]

/-- In a scene at rest nothing waits. -/
theorem World.waiting_of_rested (h : w.Rested) (x : EntityId × Nat) : w.waiting x = [] := by
  unfold World.waiting
  split
  · rfl
  · rename_i slot hslot
    rw [Slot.waiting, (h x slot hslot).2, List.filterMap_nil]

/-- When nothing waits, the component has been told of the last switch after it was made. -/
theorem Informed.told_last (h : Informed x w w' l) (nothing : w'.waiting x = []) {on : Bool}
    (last : (Deed.switches l).getLast? = some on) :
    ∃ pre post, l = pre ++ .switched on :: post ∧ Deed.switches post = [] ∧
      on ∈ Deed.tellings post := by
  obtain ⟨earlier, hl⟩ := List.getLast?_eq_some_iff.1 last
  obtain ⟨pre, rest, rfl, -, hrest⟩ := List.filterMap_eq_append_iff.1 hl
  obtain ⟨tellings, d, post, rfl, -, hd, none⟩ := List.filterMap_eq_cons_iff.1 hrest
  cases d with
  | told => cases hd
  | switched =>
    cases hd
    refine ⟨pre ++ tellings, post, (List.append_assoc ..).symm, none, ?_⟩
    have told : (on :: Deed.switches post).count on ≤
        (Deed.tellings post).count on + (w'.waiting x).count on :=
      h.later (pre ++ tellings) (.switched on :: post) (List.append_assoc ..).symm on
    rw [nothing, List.count_nil, List.count_cons_self] at told
    exact List.count_pos_iff.1 (by omega)

/-- The account of a component that is enabled begins with nothing. -/
theorem World.exists_account (h : w.slotEnabled x.1 x.2 = true) :
    ∃ slot, World.Account x w [] w [] slot [] := by
  obtain ⟨slot, hslot⟩ := World.exists_slot_of_slotEnabled h
  refine ⟨slot, hslot, (World.slotEnabled_of_slot? hslot).symm.trans h, List.nil_prefix,
    (List.append_nil _).symm, ?_, fun a ha => ⟨a, ha, .inr rfl⟩⟩
  rw [World.waiting_of_slot? hslot, List.append_nil]
  exact .nil _

/-- When nothing is due any more, the account tells how the component is informed. -/
theorem World.Booked.informed {start : List Deed} (h : World.Booked x w start .none w')
    (after : w'.slotEnabled x.1 x.2 = true) : ∃ l, Informed x w w' l ∧ start <+: l := by
  obtain ⟨slot, hslot⟩ := World.exists_slot_of_slotEnabled after
  obtain ⟨_, l, account⟩ := h.account.account (World.isSome_entity?_of_slot? hslot)
  have balanced : Balanced (w.waiting x) (w'.waiting x) l := by
    rw [World.waiting_of_slot? account.there]
    exact account.balanced.perm (List.append_nil _ ▸ .refl _)
  refine ⟨l, ⟨account.journal, List.perm_iff_count.2 fun on => ?_, fun _ _ => balanced.later,
    account.state⟩, account.starts⟩
  rw [List.count_append, List.count_append]
  exact balanced.all on

end Informed

section Scenes

variable [Scalar K] [Behavior K B] {x : EntityId × Nat} {on : Bool} {depth : Nat}
  {w w' : World K B}

/-- The run that is watched is the run of the scene. -/
theorem EnabledThroughout.run (h : EnabledThroughout x on depth w w') :
    SceneM.performWith (SceneM.respond depth) (.setActive x.1 on) w = .ok () w' :=
  refines_performWith (refines_respondWhile _ depth) (.setActive x.1 on) w () w' h.watched

/-- The component is informed, and when there is something to switch, that is the first switch. -/
theorem EnabledThroughout.informed (h : EnabledThroughout x on depth w w') :
    ∃ l, Informed x w w' l ∧ ∀ a, w.actor? x.1 = some a → (SceneM.switched a.state on).isSome →
      [.switched on] <+: l := by
  obtain ⟨slot, account⟩ := World.exists_account h.before
  have known : x.1.index < w.entities.size := World.index_lt_of_slot? account.there
  have watched : SceneM.setActive (SceneM.respondWhile (fun v => v.slotEnabled x.1 x.2) depth)
      x.1 on w = .ok () w' := h.watched
  cases switched : (w.actor? x.1).bind fun a => SceneM.switched a.state on with
  | none =>
    rw [SceneM.setActive_of_none switched] at watched
    cases watched
    have booked : World.Booked x w [] .none w :=
      ⟨fun _ => nofun, known, fun _ => ⟨slot, [], account⟩⟩
    obtain ⟨l, informed, -⟩ := booked.informed h.after
    refine ⟨l, informed, fun a ha changes => ?_⟩
    rw [ha, Option.bind_some] at switched
    rw [switched] at changes
    cases changes
  | some state =>
    obtain ⟨a, ha, hstate⟩ := Option.bind_eq_some_iff.1 switched
    have owed := World.owed_booked x w [.switched on]
    have tells := owed.tells_respondWhile Scope.behaved_everything.but depth
    -- the first switch is made before anything is set off
    have first : World.Booked x w [.switched on] (Pending.none.owe (.actor x.1 on))
        ((w.modifyActor x.1 fun a => { a with state }).record
          (.actor (if on then .activated x.1 else .deactivated x.1))) := by
      refine ⟨fun _ hmem => List.not_mem_nil (Pending.mem_of_owe hmem nofun), ?_,
        fun _ => ⟨slot, [.switched on], ?_⟩⟩
      · exact Nat.lt_of_lt_of_le known
          ((World.Precedes.switch ha hstate).trans (.record _ _)).size
      · rw [World.owed_owe, Due.tells?, if_pos rfl]
        exact { account.switch ha hstate with starts := List.prefix_rfl }
    obtain ⟨-, booked⟩ := owed.setActive_of_switched tells switched
      ⟨Scope.fitScheduler_everything _, first⟩ w rfl () w' watched
    obtain ⟨l, informed, starts⟩ := booked.informed h.after
    exact ⟨l, informed, fun _ _ _ => starts⟩

/-- Whatever hooks, observers and scripts do while an actor is switched, a component that is enabled
all along is told of every switch of its actor exactly once, and after it is made; the first one is
the switch that was asked for, if there is anything to switch. When the scene was at rest, nothing
waits in the end: the component has been told, after the last switch, what the actor has become, and
if the actor was switched only once, it has been told nothing else. -/
theorem every_switch_is_told (h : EnabledThroughout x on depth w w') :
    ∃ l, Informed x w w' l ∧
      (∀ a, w.actor? x.1 = some a → (SceneM.switched a.state on).isSome → [.switched on] <+: l) ∧
      (w.Rested → w'.Rested ∧ (Deed.tellings l).Perm (Deed.switches l) ∧
        (∀ last, (Deed.switches l).getLast? = some last → ∃ pre post,
          l = pre ++ .switched last :: post ∧ Deed.switches post = [] ∧
            last ∈ Deed.tellings post) ∧
        ∀ only, Deed.switches l = [only] → Deed.tellings l = [only]) := by
  obtain ⟨l, informed, first⟩ := h.informed
  refine ⟨l, informed, first, fun rested => ?_⟩
  have led : Keeps ((Scope.everything K B).Led ⟨[], w⟩ [])
      (SceneM.performWith (SceneM.respond depth) (.setActive x.1 on)) :=
    Scope.led_perform (Scope.fitScheduler_everything w) Scope.behaved_everything depth
      ⟨fun _ _ => trivial, fun _ _ => ⟨trivial, trivial⟩⟩ []
  have leads : (Scope.everything K B).Leads ⟨[], w⟩ ⟨[], w'⟩ := (led w .refl () w' h.run).leads
  have rested' := (leads.keeps Change.inService (.rested rested)).world_rested
  have nothing := World.waiting_of_rested rested' x
  have once : (Deed.tellings l).Perm (Deed.switches l) := by
    have once := informed.once
    rwa [nothing, World.waiting_of_rested rested x, List.append_nil, List.nil_append] at once
  refine ⟨rested', once, fun _ => informed.told_last nothing, fun only made => ?_⟩
  rw [made] at once
  exact List.perm_singleton.1 once

end Scenes

/-! ## An actor that does not want to rest -/

/-- A component that switches its actor on again when it is told that it was switched off, and one
that does nothing. -/
inductive Mood where
  | keen
  | calm

instance : Behavior Float32 Mood where
  typeName
    | .keen => "Keen"
    | .calm => "Calm"
  react mood e hook :=
    match mood, hook with
    | .keen, .disable => do
      let () ← Program.request (.setActive e true)
      return mood
    | _, _ => return mood

/-- An actor with both components, the keen one first. -/
def moodyScene : Program Float32 Mood Unit := do
  let e ← Program.edit (.spawn (.named "a"))
  let _ ← Program.edit (.add e (.custom .keen))
  let _ ← Program.edit (.add e (.custom .calm))
  return ()

/-- The switches and the tellings of the calm component that the journal has. -/
def calmBook (w : World Float32 Mood) : List Bool × List Bool :=
  (Deed.switches (w.noted (Event.deed? (⟨0⟩, 1))), Deed.tellings (w.noted (Event.deed? (⟨0⟩, 1))))

/-- The actor is switched off, and is active in the end. The calm component is told of the second
switch first. -/
theorem exists_revival : ∃ w w' : World Float32 Mood,
    Reachable (Scope.everything Float32 Mood).fit w ∧
    EnabledThroughout (⟨0⟩, 1) false SceneM.hookLimit w w' ∧ calmBook w = ([], []) ∧
    calmBook w' = ([false, true], [true, false]) ∧
    (∃ a, w.actor? ⟨0⟩ = some a ∧ a.state = .active) ∧
    ∃ a, w'.actor? ⟨0⟩ = some a ∧ a.state = .active := by
  have run : moodyScene.passes .bare fun _ w =>
      w.slotEnabled ⟨0⟩ 1 && decide (calmBook w = ([], [])) &&
      decide ((w.actor? ⟨0⟩).map (·.state) = some .active) &&
      passes (SceneM.performWith (SceneM.respondWhile (fun v => v.slotEnabled ⟨0⟩ 1)
          SceneM.hookLimit) (.setActive ⟨0⟩ false)) w fun _ w' =>
        w'.slotEnabled ⟨0⟩ 1 && decide (calmBook w' = ([false, true], [true, false])) &&
        decide ((w'.actor? ⟨0⟩).map (·.state) = some .active) := by
    decide +kernel
  obtain ⟨_, w, hrun, checked⟩ := Program.exists_of_passes run
  simp only [Bool.and_eq_true, decide_eq_true_eq] at checked
  obtain ⟨⟨⟨before, fresh⟩, active⟩, checked⟩ := checked
  obtain ⟨_, w', watched, checked⟩ := exists_of_passes checked
  simp only [Bool.and_eq_true, decide_eq_true_eq] at checked
  obtain ⟨⟨after, book⟩, active'⟩ := checked
  exact ⟨w, w', .step (.empty rfl rfl rfl rfl) (.program (Scope.fit_everything moodyScene) hrun),
    ⟨before, watched, after⟩, fresh, book, Option.map_eq_some_iff.1 active,
    Option.map_eq_some_iff.1 active'⟩

/-- It is told of both switches once, and of the last one after it was made. -/
theorem every_switch_is_told_revival : ∃ (w w' : World Float32 Mood) (l : List Deed),
    EnabledThroughout (⟨0⟩, 1) false SceneM.hookLimit w w' ∧ Informed (⟨0⟩, 1) w w' l ∧
    [.switched false] <+: l ∧ w'.Rested ∧ (Deed.tellings l).Perm (Deed.switches l) ∧
    Deed.switches l = [false, true] ∧ ∃ pre post, l = pre ++ .switched true :: post ∧
      Deed.switches post = [] ∧ true ∈ Deed.tellings post := by
  obtain ⟨w, w', reachable, throughout, fresh, book, ⟨a, ha, active⟩, -⟩ := exists_revival
  obtain ⟨l, informed, first, rest⟩ := every_switch_is_told throughout
  obtain ⟨rested, once, last, -⟩ := rest reachable.rested
  have made : Deed.switches l = [false, true] := by
    have all := (Prod.ext_iff.1 book).1
    rw [calmBook, informed.journal, Deed.switches_append] at all
    rwa [show Deed.switches (w.noted (Event.deed? (⟨0⟩, 1))) = [] from (Prod.ext_iff.1 fresh).1,
      List.nil_append] at all
  have starts : [.switched false] <+: l := first a ha (by rw [active]; rfl)
  exact ⟨w, w', l, throughout, informed, starts, rested, once, made,
    last true (by rw [made]; rfl)⟩

/-- A component that is enabled all along may be told last that its actor was switched off although
the actor is active. -/
theorem last_telling_may_be_stale : ¬ ∀ (w w' : World Float32 Mood) (x : EntityId × Nat)
    (on : Bool), Reachable (Scope.everything Float32 Mood).fit w →
    (∀ a, w.actor? x.1 = some a → (SceneM.switched a.state on).isSome) →
    EnabledThroughout x on SceneM.hookLimit w w' → ∀ a, w'.actor? x.1 = some a →
      (a.state = .active →
        (Deed.tellings (w'.noted (Event.deed? x))).getLast? = some true) ∧
      (a.state = .inactive →
        (Deed.tellings (w'.noted (Event.deed? x))).getLast? = some false) := by
  intro claim
  obtain ⟨w, w', reachable, throughout, -, book, ⟨a, ha, active⟩, a', ha', active'⟩ :=
    exists_revival
  have switches : ∀ b, w.actor? ⟨0⟩ = some b → (SceneM.switched b.state false).isSome := by
    intro b hb
    cases ha.symm.trans hb
    rw [active]
    rfl
  have last := (claim w w' (⟨0⟩, 1) false reachable switches throughout a' ha').1 active'
  have tellings : Deed.tellings (w'.noted (Event.deed? (⟨0⟩, 1))) = [true, false] :=
    (Prod.ext_iff.1 book).2
  rw [tellings] at last
  cases last

end SheepScene
