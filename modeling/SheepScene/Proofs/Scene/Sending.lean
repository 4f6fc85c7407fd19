import SheepScene.Proofs.Scene.Arrival

/-!
# Sending an actor somewhere

A script that moves an actor is answered at once. An actor that is not active is put where it is to
be, and there is nothing to wait for. For an active one a handle is issued, which its first mover is
given together with the new move; the mover is enabled if it was not. An actor that has no mover
gets one. Either way no other component is touched (`World.SentOff`).
-/

set_option autoImplicit false

namespace SheepScene

section First

variable {K B : Type}

/-! ## The first component of a type -/

namespace World

variable {w v : World K B} {e : EntityId} {kind : ComponentKind} {index : Nat}

/-- The first component of a type is of that type, and those before it are not. -/
theorem first?_eq_some_iff : w.first? e kind = some index ↔
    (w.slot? e index).map (·.kind) = some kind ∧
      ∀ i < index, (w.slot? e i).map (·.kind) ≠ some kind := by
  unfold first? slot?
  cases w.slots? e with
  | none => simp
  | some slots =>
    simp only [Option.bind_some, Slots.index?, Array.findIdx?_eq_some_iff_getElem, beq_iff_eq]
    constructor
    · rintro ⟨hlt, here, before⟩
      refine ⟨by rw [Array.getElem?_eq_getElem hlt, Option.map_some, here], fun i hi => ?_⟩
      rw [Array.getElem?_eq_getElem (Nat.lt_trans hi hlt), Option.map_some]
      exact fun same => before i hi (Option.some.inj same)
    · rintro ⟨here, before⟩
      obtain ⟨slot, hslot, hkind⟩ := Option.map_eq_some_iff.1 here
      obtain ⟨hlt, rfl⟩ := Array.getElem?_eq_some_iff.1 hslot
      refine ⟨hlt, hkind, fun i hi same => before i hi ?_⟩
      rw [Array.getElem?_eq_getElem (Nat.lt_trans hi hlt), Option.map_some, same]

/-- It stays the first one where the types of the slots stay as they are. -/
theorem first?_congr (kinds : ∀ i, (v.slot? e i).map (·.kind) = (w.slot? e i).map (·.kind)) :
    v.first? e kind = w.first? e kind := by
  refine Option.ext fun i => ?_
  rw [first?_eq_some_iff, first?_eq_some_iff]
  simp only [kinds]

/-- Of two changes of one slot the second counts. -/
theorem Reslotted.trans {v' : World K B} {slot slot' : Slot K B}
    (h : w.Reslotted v e index slot) (h' : v.Reslotted v' e index slot') :
    w.Reslotted v' e index slot' :=
  ⟨h'.here, fun y hy => (h'.elsewhere y hy).trans (h.elsewhere y hy)⟩

/-- The first component of a type stays so when a slot changes but not its type. -/
theorem Reslotted.first? {slot slot' : Slot K B} (h : w.Reslotted v e index slot')
    (there : w.slot? e index = some slot) (same : slot'.kind = slot.kind) :
    v.first? e kind = w.first? e kind := by
  refine first?_congr fun i => ?_
  rw [h.slot?_eq (e, i)]
  split
  · rename_i here
    cases here
    rw [there, Option.map_some, Option.map_some, same]
  · rfl

/-- Where there was no component of a type, one that is added is the first one. -/
theorem first?_push {slots : Array (Slot K B)} (hslots : w.slots? e = some slots) {slot : Slot K B}
    (none : w.first? e slot.kind = none) :
    (w.modifySlots e fun slots => slots.push slot).first? e slot.kind = some slots.size := by
  rw [first?, hslots, Option.bind_some, Slots.index?] at none
  rw [first?, slots?_modifySlots, if_pos rfl, hslots]
  simp only [Option.map_some, Option.bind_some, Slots.index?, Array.findIdx?_push, none,
    beq_self_eq_true, if_true, Option.none_or]

/-- In a scene at rest components can be looked up by their type. -/
theorem Rested.presentIndex?_eq (rested : w.Rested) (e : EntityId) (kind : ComponentKind) :
    ((w.slots? e).bind fun slots => Slots.presentIndex? slots kind) = w.first? e kind :=
  World.presentIndex?_eq fun i slot there _ => (rested (e, i) slot there).1

variable [Scalar K] {target : Vec3 K} {duration : K} {done : Option WaitHandle}

/-- In a scene at rest an actor without a mover is not sent anywhere. -/
theorem Rested.retarget_none (rested : w.Rested) (none : w.first? e .mover = none) :
    w.retarget e target duration done = (false, w) := by
  unfold retarget
  rw [rested.presentIndex?_eq, none]

/-- In a scene at rest it is the first mover that is retargeted. -/
theorem Rested.retarget_first (rested : w.Rested) (first : w.first? e .mover = some index)
    {slot : Slot K B} {m : Mover K} (there : w.slot? e index = some slot)
    (holds : slot.component = some (.mover m)) : w.retarget e target duration done
      = (true, (w.dropComponent (.mover m)).setComponent e index
          (some (.mover (m.retargeted target duration done)))) := by
  have found : w.component? e .mover = some (.mover m) := by
    have present := rested.presentIndex?_eq e .mover
    obtain ⟨slots, hslots, hindex⟩ := Option.bind_eq_some_iff.1 there
    rw [first, hslots, Option.bind_some] at present
    rw [component?, hslots, Option.bind_some, Slots.present?, present, Option.bind_some, hindex,
      Option.bind_some, holds]
  exact retarget_of_looked ((rested.presentIndex?_eq e .mover).trans first) found target duration
    done

end World

end First

/-! ## Enabling the first mover -/

section Enabling

open World

variable {K B : Type} [Scalar K] [Behavior K B] {w : World K B} {e : EntityId}
  {first : Nat} {slot : Slot K B} {m : Mover K}

/-- Enabling the first mover of an actor comes to an end. It has no other effect when the move of
the mover is not over. -/
theorem SceneM.run_setEnabled (depth : Nat) (isFirst : w.first? e .mover = some first)
    (there : w.slot? e first = some slot) (idle : slot.deferred = [])
    (holds : slot.component = some (.mover m)) (going : m.finished = false) : ∃ w',
    SceneM.setEnabled (SceneM.respond (depth + 1)) e .mover true w = .ok () w' ∧
    w.Reslotted w' e first { slot with enabled := true } ∧ w'.waits = w.waits := by
  cases off : slot.enabled with
  | true => exact ⟨w, off ▸ setEnabled_same isFirst there, .refl (off ▸ there), rfl⟩
  | false =>
    have on := (Reslotted.refl there).modifySlot fun slot => { slot with enabled := true }
    have out := ((on.modifySlot fun slot => { slot with component := none }).record
      (.hook e first .began .enable))
    have back := ((out.record (.hook e first .ended .enable)).modifySlot fun slot =>
      { slot with component := some (.mover m) })
    have other : slot.enabled ≠ true := by
      rw [off]
      nofun
    obtain ⟨kind, _, _, _⟩ := slot
    cases holds
    exact ⟨_, (setEnabled_other isFirst there other).trans
      (respond_of_run on.here rfl (Mover.run_enable going) out.here idle), back, rfl⟩

end Enabling

/-! ## Moving an actor -/

/-- A handle that has just been issued is not complete. -/
theorem Waits.isComplete_issue_self (a : Waits) :
    a.issue.2.isComplete (.issued a.issued.size) = false := by
  simp [issue, isComplete]

/-- The slot of a mover that is enabled and at rest. -/
def Slot.ofMover {K B : Type} (m : Mover K) : Slot K B :=
  { kind := .mover, enabled := true, component := some (.mover m), deferred := [] }

/-- How a scene is after an active actor has been sent to a point: its first mover is about to take
it there, with the handle that was issued for it, and no other component is touched. -/
structure World.SentOff {K B : Type} [Scalar K] (w w' : World K B) (e : EntityId) (first : Nat)
    (target : Vec3 K) (duration : K) : Prop where
  mover : ∃ easing, w.Reslotted w' e first
    (.ofMover (.start target duration easing (some (.issued w.waits.issued.size))))
  first : w'.first? e .mover = some first
  issued : w'.waits.issued.size = w.waits.issued.size + 1
  waiting : w'.waits.isComplete (.issued w.waits.issued.size) = false

namespace HostFunctions

variable {B : Type} [Behavior Float32 B] {respond : Impulse Float32 → SceneM Float32 B Unit}
  {w : World Float32 B} {e : EntityId} {args : List Value}

/-- Looking up the actor of a name answers with it and changes nothing. -/
theorem run_namedActor (function : String) {name : String} (found : w.find? name = some e) :
    (namedActor function name).run (SceneM.performWithin respond) w = .ok (some e) w := by
  have asked : (Program.ask (.find name) : Steps B _).run (SceneM.performWithin respond) w
      = .ok (some e) w := by
    change EStateM.Result.ok (w.find? name) w = _
    rw [found]
  change ((Program.ask (.find name)).bind _).run _ w = _
  rw [Program.run_bind, bind_of_ok asked]
  rfl

variable (found : w.find? (text args 0) = some e)
include found

/-- An actor that is not active is put where it is to be. -/
theorem run_moveActorTo_resting (resting : w.isActive e = false) :
    (moveActorTo args).run (SceneM.performWithin respond) w
      = .ok .void (w.placeInWorld e (.position (point args 1))) := by
  change ((namedActor _ _).bind _).run _ w = _
  rw [Program.run_bind, bind_of_ok (run_namedActor _ found)]
  have asked : SceneM.performWithin respond (.ask (.isActive e)) w = .ok false w := by
    change EStateM.Result.ok (w.isActive e) w = _
    rw [resting]
  exact (bind_of_ok asked).trans rfl

variable (active : w.isActive e = true) {v : World Float32 B}
include active

/-- A handle has been issued, and the first mover is given it and enabled. -/
theorem run_moveActorTo_retargets {w' : World Float32 B}
    (moved : World.retarget { w with waits := w.waits.issue.2 } e (point args 1) (float args 4)
      (some (.issued w.waits.issued.size)) = (true, v))
    (enabled : SceneM.setEnabled respond e .mover true v = .ok () w') :
    (moveActorTo args).run (SceneM.performWithin respond) w
      = .ok (.waiting (.issued w.waits.issued.size)) w' := by
  change ((namedActor _ _).bind _).run _ w = _
  rw [Program.run_bind, bind_of_ok (run_namedActor _ found)]
  have asked : SceneM.performWithin respond (.ask (.isActive e)) w = .ok true w := by
    change EStateM.Result.ok (w.isActive e) w = _
    rw [active]
  have retargeted : SceneM.performWithin respond (.edit (.retarget e (point args 1) (float args 4)
      (some (.issued w.waits.issued.size)))) { w with waits := w.waits.issue.2 } = .ok true v := by
    change EStateM.Result.ok (World.retarget _ _ _ _ _).1 (World.retarget _ _ _ _ _).2 = _
    rw [moved]
  refine (bind_of_ok asked).trans ((bind_of_ok rfl).trans ((bind_of_ok retargeted).trans ?_))
  exact (bind_of_ok enabled).trans rfl

/-- Where there is no mover, one is added with the handle. -/
theorem run_moveActorTo_adds
    (stays : World.retarget { w with waits := w.waits.issue.2 } e (point args 1) (float args 4)
      (some (.issued w.waits.issued.size)) = (false, v)) :
    (moveActorTo args).run (SceneM.performWithin respond) w
      = .ok (.waiting (.issued w.waits.issued.size)) (v.addComponent e (.mover
          (.start (point args 1) (float args 4) .linear (some (.issued w.waits.issued.size))))).2
    := by
  change ((namedActor _ _).bind _).run _ w = _
  rw [Program.run_bind, bind_of_ok (run_namedActor _ found)]
  have asked : SceneM.performWithin respond (.ask (.isActive e)) w = .ok true w := by
    change EStateM.Result.ok (w.isActive e) w = _
    rw [active]
  have retargeted : SceneM.performWithin respond (.edit (.retarget e (point args 1) (float args 4)
      (some (.issued w.waits.issued.size)))) { w with waits := w.waits.issue.2 } = .ok false v := by
    change EStateM.Result.ok (World.retarget _ _ _ _ _).1 (World.retarget _ _ _ _ _).2 = _
    rw [stays]
  exact (bind_of_ok asked).trans ((bind_of_ok rfl).trans ((bind_of_ok retargeted).trans rfl))

/-- At any moment an active actor can be sent to a point. -/
theorem exists_sent {fit : Fitness Float32 B} (h : AtMoment fit w)
    (fresh : ∀ index m, w.cell? (e, index) = some (some (.mover m)) →
      m.done ≠ some (.issued w.waits.issued.size)) (depth : Nat) : ∃ first w',
    (moveActorTo args).run (SceneM.performWithin (SceneM.respond (depth + 1))) w
      = .ok (.waiting (.issued w.waits.issued.size)) w' ∧
    w.SentOff w' e first (point args 1) (float args 4) := by
  obtain ⟨u, hu⟩ : ∃ u, u = { w with waits := w.waits.issue.2 } := ⟨_, rfl⟩
  have rested : u.Rested := hu ▸ h.rested
  have same : ∀ x, u.slots? x = w.slots? x := fun x => hu ▸ rfl
  have issued : u.waits.issued.size = w.waits.issued.size + 1 := hu ▸ w.waits.size_issue
  have waiting : u.waits.isComplete (.issued w.waits.issued.size) = false :=
    hu ▸ w.waits.isComplete_issue_self
  have firsts : u.first? e .mover = w.first? e .mover := hu ▸ rfl
  cases isFirst : w.first? e .mover with
  | none =>
    obtain ⟨slots, hslots⟩ : ∃ slots, u.slots? e = some slots := by
      rw [same]
      exact Option.isSome_iff_exists.1 (h.equipped e (World.isActive_iff.1 active).1)
    refine ⟨slots.size, _, run_moveActorTo_adds found active
      (hu ▸ rested.retarget_none (firsts.trans isFirst)), ?_⟩
    obtain ⟨m, hm⟩ : ∃ m : Mover Float32, m = .start (point args 1) (float args 4) .linear
      (some (.issued w.waits.issued.size)) := ⟨_, rfl⟩
    have added : (u.addComponent e (.mover m)).2
        = u.modifySlots e fun slots => slots.push (.ofMover m) := by
      unfold World.addComponent
      rw [hslots]
      rfl
    have pushed := World.slot?_push hslots (.ofMover m)
    have isLast : (u.modifySlots e fun slots => slots.push (.ofMover m)).first? e .mover
        = some slots.size := World.first?_push hslots (firsts.trans isFirst)
    rw [← hu, ← hm, added]
    refine ⟨⟨.linear, ?_, fun y hy => ?_⟩, isLast, issued, waiting⟩
    · rw [← hm]
      exact (pushed (e, slots.size)).trans (if_pos rfl)
    · exact ((pushed y).trans (if_neg hy)).trans (World.slot?_congr (same _) _)
  | some first =>
    obtain ⟨slot, there, kind⟩ :=
      Option.map_eq_some_iff.1 (World.first?_eq_some_iff.1 isFirst).1
    obtain ⟨m, holds⟩ := (h.mover_iff there).1 kind
    have idle := (h.rested (e, first) slot there).2
    have there' : u.slot? e first = some slot := (World.slot?_congr (same e) first).trans there
    have reslotted : w.Reslotted u e first slot := ⟨there', fun y _ => World.slot?_congr (same _) _⟩
    have dropped := reslotted.congr (World.SameSlots.dropComponent u (.mover m)).slots
    have moved := dropped.modifySlot fun slot => { slot with
      component := some (.mover (m.retargeted (point args 1) (float args 4)
        (some (.issued w.waits.issued.size)))) }
    obtain ⟨w', enabled, on, waits⟩ := SceneM.run_setEnabled depth
      ((moved.first? there rfl).trans isFirst) moved.here idle rfl rfl
    refine ⟨first, w', run_moveActorTo_retargets found active
      (hu ▸ rested.retarget_first (firsts.trans isFirst) there' holds) enabled, ?_⟩
    refine ⟨⟨m.easing, ?_⟩, ((moved.trans on).first? there rfl).trans isFirst, ?_, ?_⟩
    · obtain ⟨_, _, _, _⟩ := slot
      cases kind
      cases idle
      exact moved.trans on
    · rw [waits]
      exact (World.SameSlots.dropComponent u (.mover m)).progress.size.trans issued
    · rw [waits]
      refine (World.isComplete_dropComponent_other (fresh first m ?_)).trans waiting
      rw [World.cell?, there, Option.map_some, holds]

end HostFunctions

end SheepScene
