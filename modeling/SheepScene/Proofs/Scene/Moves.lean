import SheepScene.Proofs.Scene.Handles
import SheepScene.Proofs.Scene.Tidy

/-!
# No wait handle of a move is lost

A script that moves an actor may wait for the handle it gets, and would wait for ever if the handle
were lost. In every scene that comes about from an empty one, where handles are issued for moves
only, every handle that was ever issued is complete or held by exactly one mover, whose move is not
over and whose actor is still there (`move_handles_are_kept`). Moves may arrive, be disabled, be
replaced by others, even while the mover executes, and actors may be destroyed and swept at any
time.

Programs that otherwise make requests of a kind, and send actors by whole moves, are `WithMoves` of
that kind. What the requests and the moves keep, such programs keep (`Serves.keeps_withMoves`).
-/

set_option autoImplicit false

namespace SheepScene

/-! ## Programs that issue handles for moves only -/

section Calm

variable {K B : Type}

/-- Edits that neither issue a handle nor make a component hold one. -/
def Edit.Calm : Edit K B → Prop
  | .issueWait => False
  | .add _ component => component.holds? = none
  | .retarget _ _ _ done => done = none
  | _ => True

/-- Requests other than edits that issue a handle or make a component hold one. -/
def Request.Calm : Request K B → Prop
  | .edit x => x.Calm
  | _ => True

/-- Plain requests are calm. -/
theorem Request.Plain.calm {request : Request K B} (h : request.Plain) : request.Calm := by
  cases request with
  | edit x => cases x <;> first | exact trivial | exact absurd h id
  | _ => trivial

/-- Plain programs are calm. -/
theorem calm_of_plain {R : Type} {p : Program K B R} (h : plain K B R p) :
    p.Only Request.Calm :=
  h.mono fun _ => Request.Plain.calm

/-- A component that holds no handle has released what it held. -/
theorem Component.released_of_free {c : Component K B} (free : c.holds? = none) : c.Released := by
  intro m hm _
  subst hm
  exact free

namespace World

namespace Accounted

variable {floor : Nat} {out : List (Executing K B)} {w : World K B}

/-- Spawning an actor keeps handles accounted for. -/
theorem spawn (h : w.Accounted floor out) (spec : ActorSpec K) :
    (w.spawn spec).2.Accounted floor out := by
  have created : ∀ {entity : Entity K B}, entity.slots = some #[] → entity.actor.isSome →
      ({ (w.create entity).2 with
        roster := some ((w.create entity).2.actors ++ [(w.create entity).1]) } :
          World K B).Accounted floor out := by
    intro entity hslots hactor
    have empty : ∀ slots, entity.slots = some slots → slots = #[] ∧ entity.actor.isSome := by
      intro slots hslots'
      cases hslots.symm.trans hslots'
      exact ⟨rfl, hactor⟩
    exact (h.create empty).sameSlots (.of_entities rfl (.refl _))
  unfold World.spawn
  dsimp only
  split
  · exact (created rfl rfl).sameSlots (.of_onlyPlaces (onlyPlaces_setParent _ _ _))
  · exact created rfl rfl

variable [Scalar K] [Behavior K B]

/-- Calm edits keep handles accounted for. -/
theorem apply (h : w.Accounted floor out) {x : Edit K B} (calm : x.Calm) :
    (w.apply x).2.Accounted floor out := by
  cases x with
  | spawn spec => exact h.spawn spec
  | spawnTransform position rotation scale => exact h.create fun slots hslots => nomatch hslots
  | spawnBare => exact h.create fun slots hslots => nomatch hslots
  | despawn e => exact h.despawn e
  | add e component => exact h.addComponent e calm (Component.released_of_free calm)
  | retarget e target duration done =>
    cases calm
    exact h.retarget e target duration
  | issueWait => exact absurd calm id
  | _ =>
    refine h.sameSlots (.apply w ?_)
    trivial

end Accounted

end World

end Calm

section Moving

variable {B R : Type}

/-- Programs of the allowed requests, and of moves of actors. -/
inductive WithMoves (allowed : Request Float32 B → Prop) : Program Float32 B R → Prop where
  | done (result : R) : WithMoves allowed (.done result)
  | perform {request next} : allowed request → (∀ answer, WithMoves allowed (next answer)) →
      WithMoves allowed (.perform request next)
  | echo {tag request next} : allowed request → (∀ answer, WithMoves allowed (next answer)) →
      WithMoves allowed (.echo tag request next)
  | move {args next} : (∀ reply, WithMoves allowed (next reply)) →
      WithMoves allowed ((HostFunctions.moveActorTo args).bind next)

section WithMoves

variable {allowed : Request Float32 B → Prop} {p : Program Float32 B R}

/-- Programs of the allowed requests may do without moves. -/
theorem WithMoves.of_only (h : p.Only allowed) : WithMoves allowed p := by
  induction p with
  | done r => exact .done r
  | perform request next ih => exact .perform h.1 fun answer => ih answer (h.2 answer)
  | echo tag request next ih => exact .echo h.1 fun answer => ih answer (h.2 answer)

/-- The functions that every scene offers make plain requests and move actors. -/
theorem HostFunctions.fitTable_withMoves (plain : ∀ request, request.Plain → allowed request) :
    FitTable (fun _ p => WithMoves allowed p) table := by
  intro f hf args
  rcases plain_or_moves hf args with h | moves
  · exact .of_only (h.mono plain)
  · rw [moves]
    exact WithMoves.move fun reply => .done _

/-- An invariant that the allowed edits and moves of actors keep is kept by programs of these. -/
theorem Serves.keeps_withMoves [Behavior Float32 B] {C : Type} {I : C → World Float32 B → Prop}
    {perform : Performer Float32 B} (serves : Serves I perform) {c : C}
    (edits : ∀ x w, allowed (.edit x) → I c w → I c (w.apply x).2)
    (record : ∀ event w, I c w → I c (w.record event))
    (moves : ∀ args, Keeps (I c) ((HostFunctions.moveActorTo args).run perform))
    (h : WithMoves allowed p) : Keeps (I c) (p.run perform) := by
  have performs : ∀ {request : Request Float32 B}, allowed request →
      Keeps (I c) (perform request) := fun hrequest => serves.keeps_request edits hrequest
  induction h with
  | done r => exact keeps_pure r
  | perform hrequest _ ih => exact keeps_bind (performs hrequest) ih
  | echo hrequest _ ih =>
    refine keeps_bind (performs hrequest) fun answer => ?_
    exact keeps_bind (keeps_modify (record _)) fun _ => ih answer
  | move _ ih =>
    rw [Program.run_bind]
    exact keeps_bind (moves _) ih

end WithMoves

/-- Programs that issue handles for moves only: calm requests, and moves of actors. -/
def moving (B : Type) : Fitness Float32 B :=
  fun _ p => WithMoves Request.Calm p

/-- The functions that every scene offers issue handles for moves only. -/
theorem HostFunctions.fitTable_moving : FitTable (moving B) table :=
  fitTable_withMoves fun _ => Request.Plain.calm

/-- Custom components and observers issue handles for moves only. -/
abbrev MovingBehavior (B : Type) [Behavior Float32 B] : Prop :=
  CustomFit (moving B)

end Moving

/-! ## Every step keeps handles accounted for -/

section Kept

variable {B : Type} [Behavior Float32 B]

/-- Handles are accounted for, and threads can call functions only that issue handles for moves. -/
def Booked (floor : Nat) (out : List (Executing Float32 B)) (w : World Float32 B) : Prop :=
  w.Accounted floor out ∧ FitScheduler (moving B) w

variable {floor : Nat} {out : List (Executing Float32 B)} {w w' : World Float32 B}

omit [Behavior Float32 B] in
/-- Handles stay booked as long as components and scheduler stay where they are. -/
theorem Booked.same (h : Booked floor out w) (same : World.SameCells w w')
    (scheduler : w'.scheduler = w.scheduler) : Booked floor out w' :=
  ⟨h.1.same same, fun s hs => h.2 s (scheduler ▸ hs)⟩

/-- Calm edits keep handles booked. -/
theorem Booked.apply (h : Booked floor out w) {x : Edit Float32 B} (calm : x.Calm) :
    Booked floor out (w.apply x).2 :=
  ⟨h.1.apply calm, fun s hs => h.2 s (scheduler_apply w x ▸ hs)⟩

omit [Behavior Float32 B] in
/-- Notes in the journal keep handles booked. -/
theorem Booked.record (h : Booked floor out w) (event : Event Float32 B) :
    Booked floor out (w.record event) :=
  h.same ⟨rfl, fun _ => rfl, fun _ => rfl, fun _ => rfl, .refl _⟩ rfl

omit [Behavior Float32 B] in
/-- Any smaller number than that of the issued handles may be booked. -/
theorem Booked.since {floor' : Nat} (h : Booked floor out w) (le : floor' ≤ w.waits.issued.size) :
    Booked floor' out w :=
  ⟨h.1.since le, h.2⟩

/-- A handle has just been issued, and is still to be taken. -/
def Untaken (floor : Nat) (out : List (Executing Float32 B)) (handle : WaitHandle)
    (w : World Float32 B) : Prop :=
  ∃ v, Booked floor out v ∧ handle = v.waits.issue.1 ∧ w = { v with waits := v.waits.issue.2 }

/-- A handle that was issued when there were at least `floor` is accounted for. -/
def Taken (floor : Nat) (out : List (Executing Float32 B)) (handle : WaitHandle)
    (w : World Float32 B) : Prop :=
  ∃ serial, floor ≤ serial ∧ handle = .issued serial ∧ Booked (serial + 1) out w

/-- The handle of a move is taken by a mover that is there, or is still to be taken. -/
theorem Untaken.retarget {handle : WaitHandle} (h : Untaken floor out handle w) (e : EntityId)
    (target : Vec3 Float32) (duration : Float32) :
    if (w.retarget e target duration (some handle)).1
      then Taken floor out handle (w.retarget e target duration (some handle)).2
      else Untaken floor out handle (w.retarget e target duration (some handle)).2 := by
  obtain ⟨v, hv, rfl, rfl⟩ := h
  have scheduler : (World.retarget { v with waits := v.waits.issue.2 } e target duration
      (some v.waits.issue.1)).2.scheduler = v.scheduler :=
    scheduler_apply (B := B) { v with waits := v.waits.issue.2 }
      (.retarget e target duration (some v.waits.issue.1))
  split
  · rename_i hmoved
    have accounted := hv.1.retargetHolding (Prod.ext hmoved rfl)
    exact ⟨_, hv.1.issued, rfl, accounted, fun s hs => hv.2 s (scheduler ▸ hs)⟩
  · rename_i hstays
    rcases World.retarget_cases { v with waits := v.waits.issue.2 } e target duration
      (some v.waits.issue.1) with heq | ⟨index, m, -, -, heq⟩
    · exact ⟨v, hv, rfl, congrArg Prod.snd heq⟩
    · exact absurd (congrArg Prod.fst heq) hstays

/-- A handle that is not taken is taken by a mover that is added. -/
theorem Untaken.addComponent {handle : WaitHandle} (h : Untaken floor out handle w) (e : EntityId)
    {c : Component Float32 B} (taken : c.holds? = some handle) (released : c.Released) :
    Taken floor out handle (w.addComponent e c).2 := by
  obtain ⟨v, hv, rfl, rfl⟩ := h
  refine ⟨_, hv.1.issued, rfl, hv.1.addHolding e taken released, fun s hs => ?_⟩
  have scheduler := scheduler_apply { v with waits := v.waits.issue.2 } (.add e c)
  exact hv.2 s (scheduler ▸ hs)

section Programs

variable {perform : (request : Request Float32 B) → SceneM Float32 B request.Answer}
  (serves : Serves (Booked floor) perform)
include serves

/-- Programs that make only calm requests keep handles booked. -/
theorem keeps_only {R : Type} {p : Program Float32 B R} (h : p.Only Request.Calm)
    (out : List (Executing Float32 B)) : Keeps (Booked floor out) (p.run perform) :=
  serves.keeps_only (fun _ _ calm hw => hw.apply calm) (fun event _ _ hw => hw.record event) h

/-- Moving an actor keeps handles accounted for, and answers a handle that has just been issued.
What is `known` of it afterwards is what follows from that and is not undone by enabling movers. -/
theorem ensures_moveActorTo {known : Nat → World Float32 B → Prop}
    (issued : ∀ serial (w : World Float32 B), serial < w.waits.issued.size → known serial w)
    (enabling : ∀ serial e, Keeps (fun w => Booked floor out w ∧ known serial w)
      (perform (.setEnabled e .mover true)))
    (args : List Value) :
    Ensures (Booked floor out) ((HostFunctions.moveActorTo args).run perform) fun reply w =>
      Booked floor out w ∧ ∀ handle, reply.wait = some handle →
        ∃ serial, floor ≤ serial ∧ handle = .issued serial ∧ known serial w := by
  have nothing : ∀ w, Booked floor out w → Booked floor out w ∧
      ∀ handle, Reply.void.wait = some handle →
        ∃ serial, floor ≤ serial ∧ handle = .issued serial ∧ known serial w :=
    fun w hw => ⟨hw, fun handle hnone => nomatch hnone⟩
  unfold HostFunctions.moveActorTo
  refine ensures_runBind (keeps_only serves (calm_of_plain
    (HostFunctions.plain_namedActor _ _)) out) fun found => ?_
  cases found with
  | none => exact ensures_runPure nothing
  | some e =>
    refine ensures_runBind (Q := fun _ => Booked floor out)
      (serves.ensures_ask fun w hw => hw) fun active => ?_
    split
    · refine ensures_runBind (Q := fun _ => Booked floor out)
        (serves.ensures_edit fun w hw => hw.apply trivial) fun _ => ?_
      exact ensures_runPure nothing
    · have settled : ∀ handle w, Taken floor out handle w → Booked floor out w ∧
          ∃ serial, floor ≤ serial ∧ handle = .issued serial ∧ known serial w := by
        rintro handle w ⟨serial, hfloor, rfl, hw⟩
        have hlt : serial < w.waits.issued.size := hw.1.issued
        exact ⟨hw.since (by omega), serial, hfloor, rfl, issued serial w hlt⟩
      refine ensures_runBind (Q := Untaken floor out)
        (serves.ensures_edit fun w hw => ⟨w, hw, rfl, rfl⟩) fun handle => ?_
      refine ensures_runBind (Q := fun moved w =>
          if moved then Taken floor out handle w else Untaken floor out handle w)
        (serves.ensures_edit fun w hw => hw.retarget e _ _) fun moved => ?_
      cases moved with
      | true =>
        refine ensures_runBind (Q := fun _ w => Booked floor out w ∧ ∃ serial,
          floor ≤ serial ∧ handle = .issued serial ∧ known serial w)
          (ensures_runRequest ?_) fun _ => ?_
        · rintro w hw a w' hrun
          obtain ⟨hbooked, serial, hfloor, rfl, hknown⟩ := settled handle w hw
          obtain ⟨hbooked', hknown'⟩ := enabling serial e w ⟨hbooked, hknown⟩ a w' hrun
          exact ⟨hbooked', serial, hfloor, rfl, hknown'⟩
        · refine ensures_runPure fun w hw => ⟨hw.1, fun k hk => ?_⟩
          cases hk
          exact hw.2
      | false =>
        refine ensures_runBind (Q := fun _ => Taken floor out handle)
          (serves.ensures_edit fun w hw => ?_) fun _ => ?_
        · refine Untaken.addComponent hw e rfl fun m hm hfinished => ?_
          cases hm
          cases hfinished
        · refine ensures_runPure fun w hw => ?_
          obtain ⟨hw, hserial⟩ := settled handle w hw
          refine ⟨hw, fun k hk => ?_⟩
          cases hk
          exact hserial

/-- Programs that issue handles for moves only keep them booked. -/
theorem keeps_moving {R : Type} {p : Program Float32 B R} (h : moving B R p)
    (out : List (Executing Float32 B)) : Keeps (Booked floor out) (p.run perform) := by
  refine serves.keeps_withMoves (fun _ _ calm hw => hw.apply calm)
    (fun event _ hw => hw.record event) (fun args => ?_) h
  have enabling : ∀ (_ : Nat) e, Keeps (fun w => Booked floor out w ∧ True)
      (perform (.setEnabled e .mover true)) := by
    intro _ e
    simp only [and_true]
    exact serves.compound (.setEnabled e .mover true) trivial out
  exact (ensures_moveActorTo serves (fun _ _ _ => trivial) enabling args).imp
    (fun _ hw => hw) fun _ _ hw => hw.1

/-! ### Movers -/

variable {e : EntityId} {index : Nat}

/-- When a mover has let go of its handle it may go on as any mover that holds none. -/
theorem ensures_release (m : Mover Float32) :
    Ensures (Booked floor (⟨e, index, .mover m⟩ :: out)) (m.release.run perform) fun _ w =>
      ∀ m' : Mover Float32, m'.done = none → Booked floor (⟨e, index, .mover m'⟩ :: out) w := by
  have free : ∀ m' : Mover Float32, m'.done = none →
      (Component.mover m' : Component Float32 B).Released :=
    fun m' hm' => Component.released_of_free hm'
  unfold Mover.release
  cases hdone : m.done with
  | some handle =>
    refine serves.ensures_edit fun w hw m' hm' => ⟨?_, hw.2⟩
    have gone := hw.1.letGo (.mover m') hm' (free m' hm')
    rw [World.dropComponent_eq, show (Component.mover m).holds? = some handle from hdone] at gone
    exact gone
  | none =>
    refine ensures_runPure fun w hw m' hm' => ⟨?_, hw.2⟩
    have gone := hw.1.letGo (.mover m') hm' (free m' hm')
    rw [World.dropComponent_eq, show (Component.mover m).holds? = none from hdone] at gone
    exact gone

/-- A mover that finishes completes its handle and lets go of it. -/
theorem ensures_finish (m : Mover Float32) :
    Ensures (Booked floor (⟨e, index, .mover m⟩ :: out)) (m.finish.run perform) fun m' w =>
      Booked floor (⟨e, index, .mover m'⟩ :: out) w :=
  ensures_runBind (ensures_release serves m) fun _ => ensures_runPure fun _ hw => hw _ rfl

/-- A hook leaves the mover that executes with what it holds, or with nothing. -/
theorem ensures_moverReact (m : Mover Float32) (hook : Hook Float32) :
    Ensures (Booked floor (⟨e, index, .mover m⟩ :: out)) ((m.react e hook).run perform)
      fun m' w => Booked floor (⟨e, index, .mover m'⟩ :: out) w := by
  cases hook with
  | enable =>
    change Ensures _ (m.onEnable.run perform) _
    unfold Mover.onEnable
    split
    · exact ensures_runBind (ensures_release serves m) fun _ => ensures_runPure fun _ hw =>
        hw _ rfl
    · exact ensures_runPure fun _ hw => hw
  | disable =>
    change Ensures _ ((m.onDisable e).run perform) _
    unfold Mover.onDisable
    split
    · exact ensures_runPure fun _ hw => hw
    · exact ensures_runBind (Q := fun _ => Booked floor (⟨e, index, .mover m⟩ :: out))
        (serves.ensures_edit fun w hw => hw.apply trivial) fun _ => ensures_finish serves m
  | update dt =>
    change Ensures _ ((m.onUpdate e dt).run perform) _
    unfold Mover.onUpdate
    split
    · exact ensures_runPure fun _ hw => hw
    · rename_i hunfinished
      refine ensures_runBind (Q := fun _ => Booked floor (⟨e, index, .mover m⟩ :: out))
        (serves.ensures_edit fun w hw => hw.apply trivial) fun start => ?_
      cases start with
      | none => exact ensures_runPure fun _ hw => hw
      | some start =>
        -- the mover moves on, with the handle it has
        have moved : ∀ (m' : Mover Float32) w, m'.done = m.done → m'.finished = m.finished →
            Booked floor (⟨e, index, .mover m⟩ :: out) w →
            Booked floor (⟨e, index, .mover m'⟩ :: out) w := by
          intro m' w hdone hfinished hw
          refine ⟨hw.1.become (fun n hn hn' => ?_) (fun k hk => ?_) fun k hk => .inl ?_, hw.2⟩
          · cases hn
            exact absurd (hfinished ▸ hn') hunfinished
          · exact hdone.symm.trans hk
          · exact hdone.trans hk
        refine ensures_runBind (Q := fun _ => Booked floor (⟨e, index, .mover m⟩ :: out))
          (serves.ensures_edit fun w hw => hw.apply trivial) fun _ => ?_
        split
        · refine ensures_runBind (Q := fun m' w => Booked floor (⟨e, index, .mover m'⟩ :: out) w)
            ((ensures_finish serves _).imp (fun w hw => moved _ w rfl rfl hw) fun _ _ hw => hw)
            fun m' => ?_
          refine ensures_runBind (Q := fun _ => Booked floor (⟨e, index, .mover m'⟩ :: out))
            (ensures_runRequest (serves.compound (.setEnabled e .mover false) trivial _))
            fun _ => ?_
          exact ensures_runPure fun _ hw => hw
        · exact ensures_runPure fun w hw => moved _ w rfl rfl hw
  | lateUpdate dt => exact ensures_runPure fun _ hw => hw

/-- A hook leaves the component that executes with what it holds, or with nothing. -/
theorem ensures_componentReact (behaved : MovingBehavior B) (component : Component Float32 B)
    (hook : Hook Float32) :
    Ensures (Booked floor (⟨e, index, component⟩ :: out)) ((component.react e hook).run perform)
      fun component w => Booked floor (⟨e, index, component⟩ :: out) w := by
  cases component with
  | mover m =>
    exact ensures_runBind (ensures_moverReact serves m hook) fun _ => ensures_runPure fun _ hw => hw
  | listener =>
    exact ensures_runBind (keeps_only serves (calm_of_plain (plain_listenerReact e hook)) _)
      fun _ => ensures_runPure fun _ hw => hw
  | custom b =>
    refine ensures_runBind (keeps_moving serves (behaved.react b e hook) _) fun b' => ?_
    refine ensures_runPure fun w hw => ⟨hw.1.become (Component.released_of_free rfl) ?_ ?_, hw.2⟩
    · exact fun k hk => nomatch hk
    · exact fun k hk => nomatch hk

end Programs

/-- Handles stay accounted for whatever happens to a scene. -/
theorem kept_booked (behaved : MovingBehavior B) (floor : Nat) :
    Kept (moving B) (Booked (B := B) floor) where
  program serves _ _ fit out := keeps_moving serves fit out
  react serves e index component hook out := ensures_componentReact serves behaved component hook
  observe := behaved.observe
  record event _ hw := hw.record event
  note event hw := hw.record event
  switch e state hw := hw.same (.modifyActor _ _ _) rfl
  enable e index enabled hw := hw.same (.modifySlot _ _ _ fun _ => rfl) rfl
  putOff e index f hw := hw.same (.modifySlot _ _ _ fun _ => rfl) rfl
  tick dt hw := hw.apply (x := .tick dt) trivial
  dequeue hw := hw.same ⟨rfl, fun _ => rfl, fun _ => rfl, fun _ => rfl, .refl _⟩ rfl
  place e placement hw := hw.apply (x := .place e placement) trivial
  destroy e hw := hw.apply (x := .destroy e) trivial
  reclaim e hw := ⟨hw.1.reclaim e, fun s hs => hw.2 s (scheduler_reclaim _ e ▸ hs)⟩
  table hw hscheduler := hw.2 _ hscheduler
  lend hw := by
    refine ⟨hw.1.sameSlots (.of_entities rfl (.refl _)), fun s hs => ?_⟩
    cases hs
  restore fit hw := by
    refine ⟨hw.1.sameSlots (.of_entities rfl (.refl _)), fun s hs => ?_⟩
    cases hs
    exact fit
  take hslot hcomponent hw := by
    refine ⟨hw.1.take ?_, hw.2⟩
    rw [World.cell?, hslot, Option.map_some, hcomponent]
  put hslot hw := by
    refine ⟨hw.1.put ?_, hw.2⟩
    obtain ⟨slots, hslots, -⟩ := Option.bind_eq_some_iff.1 hslot
    rw [hslots, Option.isSome_some]
  drop _ hw := by
    have gone := hw.1.letGo .listener rfl (Component.released_of_free rfl)
    refine ⟨gone.forget fun k hk => ?_, fun s hs => hw.2 s ?_⟩
    · cases hk
    · rwa [World.dropComponent_eq] at hs

omit [Behavior Float32 B] in
/-- In an empty scene there is nothing to book. -/
theorem booked_empty (entities : w.entities = #[]) (waits : w.waits = .none)
    (scheduler : w.scheduler = none) : Booked 0 [] w := by
  have hnone : ∀ e, w.entity? e = none := by
    intro e
    rw [World.entity?, entities]
    rfl
  have hslots : ∀ e, w.slots? e = none := by
    intro e
    rw [World.slots?, hnone]
    rfl
  have hcell : ∀ x, w.cell? x = none := by
    intro x
    rw [World.cell?, World.slot?, hslots]
    rfl
  have absent : ∀ x c, ¬ w.Present [] x c := by
    rintro x c (hc | hc)
    · rw [hcell] at hc
      cases hc
    · cases hc
  refine ⟨⟨fun x hx => absurd hx List.not_mem_nil, .nil, fun e he => ?_,
    fun x c hc => absurd hc (absent x c), Nat.zero_le _, ?_, ?_, fun serial hlt => ?_⟩,
    fun s hs => ?_⟩
  · rw [hslots] at he
    cases he
  · rintro x h ⟨c, hc, -⟩
    exact absurd hc (absent x c)
  · rintro x y h ⟨c, hc, -⟩
    exact absurd hc (absent x c)
  · rw [waits] at hlt
    exact absurd hlt (Nat.not_lt_zero _)
  · rw [scheduler] at hs
    cases hs

end Kept

/-! ## The handles of a scene -/

namespace World

variable {K B : Type}

/-- A mover is in the slot at a place of an actor that is there. -/
def MoverAt (w : World K B) (x : EntityId × Nat) (m : Mover K) : Prop :=
  (w.actor? x.1).isSome ∧ ∃ slot, w.slot? x.1 x.2 = some slot ∧ slot.component = some (.mover m)

/-- Where nothing executes, movers are present where they are in their slots. -/
theorem Accounted.moverAt_iff {floor : Nat} {w : World K B} (h : w.Accounted floor [])
    {x : EntityId × Nat} {m : Mover K} : w.MoverAt x m ↔ w.Present [] x (.mover m) := by
  have hcell : w.Present [] x (.mover m) ↔ w.cell? x = some (some (.mover m)) := by
    simp [Present]
  rw [hcell, cell?, Option.map_eq_some_iff]
  refine ⟨fun h => h.2, fun hslot => ⟨?_, hslot⟩⟩
  exact h.actors _ (slots?_of_cell? (Option.map_eq_some_iff.2 hslot))

/-- Only movers hold handles. -/
theorem exists_moverAt {w : World K B} {x : EntityId × Nat} {k : WaitHandle}
    (there : (w.actor? x.1).isSome)
    (holds : ((w.slot? x.1 x.2).bind (·.component)).bind Component.holds? = some k) :
    ∃ m, w.MoverAt x m ∧ m.done = some k := by
  obtain ⟨component, hcomponent, hdone⟩ := Option.bind_eq_some_iff.1 holds
  obtain ⟨slot, hslot, hcomponent⟩ := Option.bind_eq_some_iff.1 hcomponent
  cases component with
  | mover m => exact ⟨m, ⟨there, slot, hslot, hcomponent⟩, hdone⟩
  | listener | custom b => cases hdone

/-- Where nothing executes, handles are held by movers in their slots. -/
theorem holds_iff {w : World K B} {x : EntityId × Nat} {k : WaitHandle} {floor : Nat}
    (h : w.Accounted floor []) :
    w.Holds [] x k ↔ ∃ m, w.MoverAt x m ∧ m.done = some k := by
  constructor
  · rintro ⟨c, hc, hk⟩
    cases c with
    | mover m => exact ⟨m, h.moverAt_iff.2 hc, hk⟩
    | listener | custom b => cases hk
  · rintro ⟨m, hm, hk⟩
    exact ⟨.mover m, h.moverAt_iff.1 hm, hk⟩

end World

/-- What is known of the handles of moves in a scene. -/
structure HandlesKept {B : Type} [Behavior Float32 B] (w : World Float32 B) : Prop where
  /-- The handle that a move answers has just been issued. -/
  answered : ∀ args reply w', (HostFunctions.moveActorTo args).run SceneM.perform w = .ok reply w' →
    ∀ handle, reply.wait = some handle → ∃ serial, handle = .issued serial ∧
      w.waits.issued.size ≤ serial ∧ serial < w'.waits.issued.size
  /-- What has been issued stays issued. -/
  issued : ∀ w', SceneStep (moving B) w w' → w.waits.issued.size ≤ w'.waits.issued.size
  /-- A handle that is not complete is held by a mover whose move is not over. -/
  held : ∀ serial < w.waits.issued.size, w.waits.isComplete (.issued serial) = true ∨
    ∃ x m, w.MoverAt x m ∧ m.done = some (.issued serial) ∧ m.finished = false
  /-- No handle is held at two places. -/
  single : ∀ x y m n k, w.MoverAt x m → w.MoverAt y n → m.done = some k → n.done = some k → x = y
  /-- A mover whose move is over holds nothing. -/
  released : ∀ x m, w.MoverAt x m → m.finished = true → m.done = none

/-- In every scene that comes about from an empty one, where handles are issued for moves only, no
handle of a move is lost. -/
theorem move_handles_are_kept {B : Type} [Behavior Float32 B] (behaved : MovingBehavior B)
    {w : World Float32 B} (h : Reachable (moving B) w) : HandlesKept w := by
  have booked : Booked 0 [] w := h.keeps (kept_booked behaved 0)
    fun w entities _ waits scheduler => booked_empty entities waits scheduler
  have accounted := booked.1
  have now : Booked w.waits.issued.size [] w := booked.since (Nat.le_refl _)
  refine ⟨fun args reply w' hrun handle hwait => ?_, fun w' hstep => ?_,
    fun serial hlt => ?_, fun x y m n k hm hn hmk hnk => ?_, fun x m hm hfinished => ?_⟩
  · have enabling : ∀ (serial : Nat) (e : EntityId),
        Keeps (fun v : World Float32 B => Booked w.waits.issued.size [] v ∧
          serial < v.waits.issued.size)
          (SceneM.perform (.setEnabled e .mover true)) := by
      rintro serial e v ⟨hv, hlt⟩ a v' henable
      have before := (kept_booked behaved w.waits.issued.size).serves_perform.compound
        (.setEnabled e .mover true) trivial [] v hv a v' henable
      have after := (kept_booked behaved (serial + 1)).serves_perform.compound
        (.setEnabled e .mover true) trivial [] v (hv.since hlt) a v' henable
      exact ⟨before, after.1.issued⟩
    obtain ⟨-, issued⟩ := ensures_moveActorTo (kept_booked behaved _).serves_perform
      (fun _ _ hlt => hlt) enabling args w now reply w' hrun
    obtain ⟨serial, hle, heq, hlt⟩ := issued handle hwait
    exact ⟨serial, heq, hle, hlt⟩
  · exact (hstep.keeps (kept_booked behaved _) now).1.issued
  · cases hcomplete : w.waits.isComplete (.issued serial) with
    | true => exact .inl rfl
    | false =>
      obtain ⟨x, hx⟩ := accounted.ledger.kept serial hlt hcomplete
      obtain ⟨m, hm, hdone⟩ := (World.holds_iff accounted).1 hx
      refine .inr ⟨x, m, hm, hdone, ?_⟩
      by_contra hfinished
      have := accounted.released x _ (accounted.moverAt_iff.1 hm) m rfl (by simpa using hfinished)
      rw [hdone] at this
      cases this
  · exact accounted.ledger.single ((World.holds_iff accounted).2 ⟨m, hm, hmk⟩)
      ((World.holds_iff accounted).2 ⟨n, hn, hnk⟩)
  · exact accounted.released x _ (accounted.moverAt_iff.1 hm) m rfl hfinished

/-- An actor is sent to a place, and to another one before it arrives. -/
def detour : Program Float32 Empty Unit := do
  let _ ← Program.edit (.spawn (.named "a"))
  let _ ← HostFunctions.moveActorTo [.string "a", .float 1, .float 2, .float 3, .float 4]
  let _ ← HostFunctions.moveActorTo [.string "a", .float 4, .float 3, .float 2, .float 1]
  return ()

/-- On the detour the handle of the first move is complete and that of the second one is not. -/
theorem move_handles_are_kept_detour :
    MovingBehavior Empty ∧ ∃ w : World Float32 Empty, Reachable (moving Empty) w ∧
      (w.waits.issued = #[true, false] ∧ ∃ m, w.MoverAt (⟨0⟩, 0) m ∧
        m.done = some (.issued 1)) ∧ HandlesKept w := by
  have behaved : MovingBehavior Empty := ⟨fun b => b.elim, fun _ => .done ()⟩
  have run : detour.passes .bare fun _ w => decide (w.waits.issued = #[true, false]) &&
      (w.actor? ⟨0⟩).isSome && decide (((w.slot? ⟨0⟩ 0).bind (·.component)).bind
        Component.holds? = some (.issued 1)) := by decide +kernel
  have fit : moving Empty Unit detour := by
    have spawned : (Request.edit (.spawn (.named "a")) : Request Float32 Empty).Calm := trivial
    refine .perform spawned fun _ => ?_
    refine WithMoves.move fun _ => ?_
    refine WithMoves.move fun _ => ?_
    exact WithMoves.done ()
  obtain ⟨_, w, hrun, checked⟩ := Program.exists_of_passes run
  simp only [Bool.and_eq_true, decide_eq_true_eq] at checked
  have h : Reachable (moving Empty) w := .step (.empty rfl rfl rfl rfl) (.program fit hrun)
  obtain ⟨⟨hissued, hactor⟩, hholds⟩ := checked
  exact ⟨behaved, w, h, ⟨hissued, World.exists_moverAt hactor hholds⟩,
    move_handles_are_kept behaved h⟩

end SheepScene
