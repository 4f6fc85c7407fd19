import Mathlib.Algebra.Order.BigOperators.Group.List
import SheepScene.Proofs.Geometry.Rationals
import SheepScene.Proofs.Scene.Passes
import SheepScene.Proofs.Scene.Queries
import SheepScene.Proofs.Scene.Sending

/-!
# Motion does not depend on the frame rate

A mover takes its actor from where it stands to the target, and how far it is on the way depends on
how much time has passed in all, not on how that time was divided into updates
(`motion_is_frame_rate_independent`). This is said of exact coordinates, and of an actor that
nothing else moves: it has no parent, no anchoring and no other component, and between the updates
it is left alone (`World.Spares`), as it is by the second update of a frame (`exists_lateUpdate`).
Where matrices are up to date such an actor stands at its position (`World.Coherent.stands`).
-/

set_option autoImplicit false

namespace SheepScene

/-! ## Actors that stand somewhere -/

section Standing

variable {K B : Type} [Scalar K]

namespace World

/-- An actor that has no parent and no anchoring stands at a point, and its matrix says so if it is
known. -/
structure Stands (w : World K B) (e : EntityId) (p : Vec3 K) : Prop where
  place : ∃ t, w.transform? e = some t ∧ t.position = p ∧ t.parent = none ∧
    ∀ m, t.localToWorld = some m → m.origin = p
  free : w.anchoring? e = none

variable {w w' : World K B} {e : EntityId} {p : Vec3 K}

namespace Stands

omit [Scalar K] in
/-- An actor goes on standing where it stands as long as the scene is the same. -/
theorem same (h : w.Stands e p) (same : SameScene w w') : w'.Stands e p := by
  refine ⟨?_, (same.anchoring? e).trans h.free⟩
  rw [same.transform? e]
  exact h.place

/-- An actor is found where it stands. -/
theorem worldPosition (h : w.Stands e p) :
    ∃ w', w.worldPosition e = (some p, w') ∧ w'.Stands e p := by
  obtain ⟨t, ht, rfl, root, known⟩ := h.place
  cases matrix : t.localToWorld with
  | some m =>
    have found := worldPosition_eq (w := w) (e := e) (m := m) (by
      rw [matrix?, ht, Option.bind_some, matrix])
    rw [known m matrix] at found
    exact ⟨w, found, h⟩
  | none =>
    have laid : w.applyLayout e = w := by
      rw [applyLayout, derivedPosition?, h.free]
      rfl
    have found : w.localToWorld e = (some t.localMatrix, w.modifyTransform e fun t' =>
        { t' with localToWorld := some t.localMatrix, worldToLocal := none }) := by
      unfold World.localToWorld
      rw [localToWorldFrom.eq_def, ht]
      dsimp only
      rw [matrix, laid, root]
      dsimp only
      rw [ht]
      rfl
    have answer : w.worldPosition e = (some t.position, (w.localToWorld e).2) := by
      rw [World.worldPosition, found]
      rfl
    have settled := (settles_localToWorld w e).sameLinks.onlyPlaces
    refine ⟨_, answer, ⟨{ t with localToWorld := some t.localMatrix, worldToLocal := none }, ?_,
      rfl, root, fun m hm => ?_⟩, (settled.anchoring? e).trans h.free⟩
    · rw [found, transform?_modifyTransform, if_pos rfl, ht, Option.map_some]
    · cases hm
      rfl

/-- An actor stands where it is put. -/
theorem placeInWorld (h : w.Stands e p) (q : Vec3 K) :
    (w.placeInWorld e (.position q)).Stands e q := by
  obtain ⟨t, ht, rfl, root, -⟩ := h.place
  have moved := (sameLinks_placeInWorld w e (.position q)).onlyPlaces
  refine ⟨?_, (moved.anchoring? e).trans h.free⟩
  rw [World.placeInWorld, ht]
  dsimp only
  rw [root]
  dsimp only
  rw [World.place, ht]
  dsimp only
  have inside : e ∈ (w.modifyTransform e (placed (.position q))).subtree e :=
    self_mem_subtreeFrom _ e
  rw [transform?_invalidate, if_pos inside, transform?_modifyTransform, if_pos rfl, ht]
  exact ⟨_, rfl, rfl, root, fun m hm => nomatch hm⟩

/-- A mover carries it from where it stands. -/
theorem carried (h : w.Stands e p) {start aim : Vec3 K} (carried : w.Carried w' e start aim) :
    start = p ∧ w'.Stands e aim := by
  obtain ⟨v, v', same, found, put⟩ := carried
  obtain ⟨u, found', stands⟩ := (h.same same.toSameScene).worldPosition
  cases found.symm.trans found'
  exact ⟨rfl, (stands.placeInWorld aim).same put.toSameScene⟩

end Stands

/-- Where matrices are up to date, an actor without parent and anchoring stands at its position. -/
theorem Coherent.stands (h : w.Coherent) {t : Transform K} (ht : w.transform? e = some t)
    (root : t.parent = none) (free : w.anchoring? e = none) : w.Stands e t.position := by
  refine ⟨⟨t, ht, rfl, root, fun m hm => ?_⟩, free⟩
  have own : w.ownMatrix? e = some t.localMatrix := by
    rw [ownMatrix?, ht, Option.map_some, laidOut, derivedPosition?, free]
    rfl
  have parent : w.parent? e = none := by rw [parent?, ht, Option.bind_some, root]
  rw [((h.knows e t ht).matrix m hm).unique (.root own parent)]
  rfl

/-- An actor that is active and is to be updated. -/
structure Takes (w : World K B) (e : EntityId) : Prop where
  updated : ∃ a, w.actor? e = some a ∧ a.updateEnabled = true
  active : w.isActive e = true

/-- A part of the time passes for it. -/
theorem Takes.ownDelta (h : w.Takes e) (dt : K) : ∃ d, SceneM.ownDelta e dt w = .ok (some d) w := by
  obtain ⟨a, ha, updated⟩ := h.updated
  refine ⟨dt * a.timeScale, congrArg (EStateM.Result.ok · w) ?_⟩
  rw [ha, Option.bind_some, if_pos (by rw [updated, h.active]; rfl)]

/-- A mover does not change that by moving it. -/
theorem Takes.carried (h : w.Takes e) {start aim : Vec3 K} (carried : w.Carried w' e start aim) :
    w'.Takes e := by
  obtain ⟨v, v', same, found, put⟩ := carried
  have links : SameLinks v (v'.placeInWorld e (.position aim)) := by
    have asked := (settles_worldPosition v e).sameLinks
    rw [found] at asked
    exact asked.trans (sameLinks_placeInWorld v' e (.position aim))
  have actor : w'.actor? e = w.actor? e :=
    ((put.actor? e).trans (links.onlyPlaces.actor? e)).trans (same.actor? e)
  have active : (v'.placeInWorld e (.position aim)).isActive e = v.isActive e :=
    isActive_congr (w := v) links.size links.parent? links.onlyPlaces.actor? e
  refine ⟨actor ▸ h.updated, ?_⟩
  rw [put.isActive, active, same.isActive]
  exact h.active

omit [Scalar K] in
/-- An actor with one component. -/
theorem slots?_singleton_iff {slot : Slot K B} :
    w.slots? e = some #[slot] ↔ ∀ i, w.slot? e i = if i = 0 then some slot else none := by
  constructor
  · intro alone i
    rw [slot?, alone, Option.bind_some]
    cases i <;> rfl
  · intro each
    obtain ⟨slots, hslots, -⟩ := Option.bind_eq_some_iff.1 (each 0)
    rw [hslots]
    refine congrArg some (Array.ext_getElem? fun i => ?_)
    have here := each i
    rw [slot?, hslots, Option.bind_some] at here
    rw [here]
    cases i <;> rfl

omit [Scalar K] in
/-- Its component is all that there is to change. -/
theorem slots?_replaced {slot slot' : Slot K B} (alone : w.slots? e = some #[slot])
    (slots : ∀ y : EntityId × Nat,
      w'.slot? y.1 y.2 = if y = (e, 0) then some slot' else w.slot? y.1 y.2) :
    w'.slots? e = some #[slot'] := by
  refine slots?_singleton_iff.2 fun i => (slots (e, i)).trans ?_
  rw [slots?_singleton_iff.1 alone i]
  cases i <;> simp

end World

/-! ## Updates of an actor -/

variable [Behavior K B] {w v : World K B} {e : EntityId} {dt d : K}

/-- A mover that is under way moves its actor. -/
theorem SceneM.run_underway (depth : Nat) {index : Nat} {slot : Slot K B} {m : Mover K}
    (placed : (w.transform? e).isSome) (there : w.slot? e index = some slot)
    (going : m.finished = false) (short : m.arrives d = false) (idle : slot.deferred = [])
    (holds : slot.component = some (.mover m)) : ∃ start w',
    SceneM.respond (depth + 1) (.hook e index (.update d)) w = .ok () w' ∧
      (∀ y : EntityId × Nat, w'.slot? y.1 y.2 = if y = (e, index) then some { slot with
          component := some (.mover (m.carried start d)) }
        else w.slot? y.1 y.2) ∧
      w'.waits = w.waits ∧ w.Carried w' e start (m.waypoint start d) := by
  obtain ⟨v, start, v', hv, same, found, put⟩ := World.exists_departed placed there (.update d)
  obtain ⟨gone, -, waits⟩ := put (m.waypoint start d)
  have back := (gone.record (.hook e index .ended (.update d))).modifySlot
    fun slot => { slot with component := some (.mover (m.carried start d)) }
  have run : ((Component.mover m : Component K B).react e (.update d)).run
      (SceneM.performWith (SceneM.respond depth)) v = .ok (.mover (m.carried start d)) _ :=
    Mover.run_update going found short
  rw [hv] at run
  refine ⟨start, _, respond_of_run there holds run gone.here idle,
    fun y => (back.slot?_eq y).trans rfl, waits,
    v, v', same, found, ((SameActors.refl _).record _).modifySlot _ _ _⟩

section Alone

variable {respond : Impulse K → SceneM K B Unit} {slot : Slot K B}

omit [Scalar K] [Behavior K B] in
/-- To tell an active actor with one component of something is to tell that component. -/
theorem SceneM.run_alone {hook : Hook K} (active : w.isActive e = true)
    (alone : w.slots? e = some #[slot]) :
    (do SceneM.dispatchWhileActive respond e hook (← SceneM.places e)) w
      = SceneM.dispatch respond e hook 0 w := by
  have places : SceneM.places e w = .ok [0] w := by
    change EStateM.Result.ok (List.range (w.componentCount e)) w = _
    rw [World.componentCount, alone]
    rfl
  refine (bind_of_ok places).trans ?_
  unfold SceneM.dispatchWhileActive
  refine (bind_of_ok (t := w) rfl).trans ?_
  rw [if_pos active]
  exact congrFun (bind_pure_unit (x := SceneM.dispatch respond e hook 0)) w

omit [Behavior K B] in
/-- The update of an actor with one component is to announce it and to tell the component. -/
theorem SceneM.run_updateActor (own : SceneM.ownDelta e dt w = .ok (some d) w)
    (announced : SceneM.emit respond (.updated e d) w = .ok () v) (active : v.isActive e = true)
    (alone : v.slots? e = some #[slot]) :
    SceneM.updateActor respond e dt w = SceneM.dispatch respond e (.update d) 0 v := by
  unfold SceneM.updateActor
  exact (bind_of_ok own).trans ((bind_of_ok announced).trans (run_alone active alone))

omit [Behavior K B] in
/-- Its second update is to tell the component. -/
theorem SceneM.run_lateUpdateActor (own : SceneM.ownDelta e dt w = .ok (some d) w)
    (active : w.isActive e = true) (alone : w.slots? e = some #[slot]) :
    SceneM.lateUpdateActor respond e dt w = SceneM.dispatch respond e (.lateUpdate d) 0 w := by
  unfold SceneM.lateUpdateActor
  exact (bind_of_ok own).trans (run_alone active alone)

end Alone

end Standing

/-! ## Exact moves -/

namespace Mover

variable {m : Mover ℚ} {start : Vec3 ℚ} {d : ℚ}

/-- Where a mover that started at a point has its actor when so much time has passed. -/
def reached (m : Mover ℚ) (start : Vec3 ℚ) (time : ℚ) : Vec3 ℚ :=
  start + (m.target - start).stretch (m.easing.ease (min 1 (time / m.duration)))

/-- At first it is at its start. -/
theorem reached_zero : m.reached start 0 = start := by
  rw [reached, zero_div, min_eq_right zero_le_one, Easing.ease_zero, ← Vec3.lerp_rat,
    Vec3.lerp_zero]

/-- When the time is over the target is reached. -/
theorem reached_of_le (lasting : 0 < m.duration) {time : ℚ} (past : m.duration ≤ time) :
    m.reached start time = m.target := by
  rw [reached, min_eq_left ((one_le_div lasting).2 past), Easing.ease_one, ← Vec3.lerp_rat,
    Vec3.lerp_one]

/-- The progress of a move is the part of its duration that is over, up to all of it. -/
theorem progress_eq (lasting : 0 < m.duration) (nonneg : 0 ≤ m.elapsed) :
    m.progress = min 1 (m.elapsed / m.duration) := by
  have positive : ¬ Scalar.le m.duration (@OfNat.ofNat ℚ 0 (Scalar.instOfNat 0)) = true := by
    rw [Scalar.le_rat, Scalar.zero_rat]
    exact not_le.2 lasting
  rw [progress, if_neg positive, Scalar.clamp01_of_nonneg (div_nonneg nonneg lasting.le), min_comm]

/-- A mover arrives with the update in which its duration is over. -/
theorem arrives_iff (lasting : 0 < m.duration) (nonneg : 0 ≤ m.elapsed + d) :
    m.arrives d = true ↔ m.duration ≤ m.elapsed + d := by
  have progress : (m.carried m.target d).progress = min 1 ((m.elapsed + d) / m.duration) :=
    progress_eq (m := m.carried m.target d) lasting nonneg
  rw [arrives, progress, Scalar.le_rat, Scalar.one_rat, le_min_iff, one_le_div lasting]
  exact and_iff_right le_rfl

/-- On its way it has its actor where so much time takes it. -/
theorem waypoint_eq (lasting : 0 < m.duration) (nonneg : 0 ≤ m.elapsed + d) {p : Vec3 ℚ}
    (begun : m.origin.getD p = start) : m.waypoint p d = m.reached start (m.elapsed + d) := by
  have progress : (m.carried p d).progress = min 1 ((m.elapsed + d) / m.duration) :=
    progress_eq (m := m.carried p d) lasting nonneg
  rw [waypoint, begun, progress, Vec3.lerp_rat]
  rfl

end Mover

section Motion

variable {B : Type}

/-! ## Actors that are left alone -/

/-- Worlds between which an actor was left alone: it stands where it stood, with the components that
it had, and the handles they hold are complete or not as they were. -/
structure World.Spares (e : EntityId) (w w' : World ℚ B) : Prop where
  stands : ∀ p, w.Stands e p → w'.Stands e p
  slots : w'.slots? e = w.slots? e
  takes : w.Takes e → w'.Takes e
  made : ∀ h, w.waits.Made h → w'.waits.Made h
  complete : ∀ h, w.waits.isComplete h = true → w'.waits.isComplete h = true
  held : ∀ index c h, w.cell? (e, index) = some (some c) → c.holds? = some h →
    w'.waits.isComplete h = w.waits.isComplete h

variable [Behavior ℚ B] {e : EntityId}

/-- Observers leave an actor alone when it is updated. -/
def Discreet (B : Type) [Behavior ℚ B] (e : EntityId) : Prop :=
  ∀ d (w : World ℚ B), ∃ w',
    SceneM.respond SceneM.hookLimit (.event (.updated e d)) w = .ok () w' ∧ w.Spares e w'

/-- Updates of an actor by its own deltas, which is left alone in between. -/
inductive Updated (e : EntityId) (w : World ℚ B) : List ℚ → World ℚ B → Prop where
  | start : Updated e w [] w
  | update {deltas v dt d w'} : Updated e w deltas v → SceneM.ownDelta e dt v = .ok (some d) v →
      SceneM.updateActor (SceneM.respond SceneM.hookLimit) e dt v = .ok () w' →
      Updated e w (deltas ++ [d]) w'
  | spare {deltas v w'} : Updated e w deltas v → v.Spares e w' → Updated e w deltas w'

variable {w v w' : World ℚ B} {m : Mover ℚ} {start : Vec3 ℚ} {time dt d : ℚ}

namespace World.Spares

omit [Behavior ℚ B] in
/-- An actor that is left alone twice is left alone. -/
theorem trans (h : w.Spares e v) (h' : v.Spares e w') : w.Spares e w' := by
  refine ⟨fun p stands => h'.stands p (h.stands p stands), h'.slots.trans h.slots,
    fun takes => h'.takes (h.takes takes), fun k made => h'.made k (h.made k made),
    fun k done => h'.complete k (h.complete k done), fun index c k there holds => ?_⟩
  refine (h'.held index c k ?_ holds).trans (h.held index c k there holds)
  rw [cell?, slot?, h.slots]
  exact there

omit [Behavior ℚ B] in
/-- What leaves all actors as they are leaves each of them alone. -/
theorem of_sameActors (same : SameActors w v) (slots : v.slots? e = w.slots? e)
    (waits : v.waits = w.waits) : w.Spares e v := by
  refine ⟨fun p stands => stands.same same.toSameScene, slots, fun takes => ⟨?_, ?_⟩,
    fun k made => waits ▸ made, fun k done => waits ▸ done, fun _ _ k _ _ => by rw [waits]⟩
  · exact same.actor? e ▸ takes.updated
  · exact (same.isActive e).trans takes.active

end World.Spares

/-- An update is announced before the components are told. -/
theorem exists_announced (discreet : Discreet B e) (w : World ℚ B) (d : ℚ) :
    ∃ v, SceneM.emit (SceneM.respond SceneM.hookLimit) (.updated e d) w = .ok () v ∧
      w.Spares e v := by
  obtain ⟨v, observed, spares⟩ := discreet d (w.record (.actor (.updated e d)))
  exact ⟨v, (bind_of_ok rfl).trans observed,
    .trans (.of_sameActors ((SameActors.refl w).record _) rfl rfl) spares⟩

/-- The second update of a frame leaves an actor alone that has a mover and nothing else. -/
theorem exists_lateUpdate {slot : Slot ℚ B} {n : Mover ℚ} (alone : w.slots? e = some #[slot])
    (holds : slot.component = some (.mover n)) (idle : slot.deferred = []) (dt : ℚ) : ∃ w',
    SceneM.lateUpdateActor (SceneM.respond SceneM.hookLimit) e dt w = .ok () w' ∧
      w.Spares e w' := by
  have kept : w.Spares e w := .of_sameActors (.refl w) rfl rfl
  cases takes : w.ownDelta? e dt with
  | none =>
    have own : SceneM.ownDelta e dt w = .ok none w := congrArg (EStateM.Result.ok · w) takes
    unfold SceneM.lateUpdateActor
    exact ⟨w, bind_of_ok own, kept⟩
  | some d =>
    have own : SceneM.ownDelta e dt w = .ok (some d) w := congrArg (EStateM.Result.ok · w) takes
    have active : w.isActive e = true := by
      obtain ⟨a, -, ha⟩ := Option.bind_eq_some_iff.1 takes
      split at ha
      · rename_i both
        exact (Bool.and_eq_true _ _ ▸ both).2
      · cases ha
    have there : w.slot? e 0 = some slot := World.slots?_singleton_iff.1 alone 0
    have out := ((World.Reslotted.refl there).modifySlot
      fun slot => { slot with component := none }).record (.hook e 0 .began (.lateUpdate d))
    have back := (out.record (.hook e 0 .ended (.lateUpdate d))).modifySlot
      fun slot => { slot with component := some (.mover n) }
    rw [SceneM.run_lateUpdateActor own active alone, SceneM.dispatch_eq there]
    split
    · obtain ⟨depth, limit⟩ := SceneM.exists_hookLimit
      rw [limit]
      refine ⟨_, SceneM.respond_of_run there holds rfl out.here idle, .of_sameActors ?_ ?_ rfl⟩
      · exact ((((SameActors.refl w).modifySlot e 0 _).record _).record _).modifySlot e 0 _
      · rw [World.slots?_replaced alone back.slot?_eq, alone, ← holds]
    · exact ⟨w, rfl, kept⟩

/-! ## On the way, and afterwards -/

/-- The actor has been on the way from a point for some time: its mover has not come to an end, and
whoever waits for it still does. -/
structure Underway (w w' : World ℚ B) (e : EntityId) (m : Mover ℚ) (start : Vec3 ℚ) (time : ℚ) :
    Prop where
  stands : w'.Stands e (m.reached start time)
  takes : w'.Takes e
  alone : ∃ origin, w'.slots? e = some #[.ofMover { m with origin, elapsed := time }] ∧
    origin.getD (m.reached start time) = start
  waiting : ∀ h, m.done = some h → w'.waits.isComplete h = w.waits.isComplete h
  made : ∀ h, w.waits.Made h → w'.waits.Made h

/-- The slot of a mover after its move. -/
def Slot.ofEnded (m : Mover ℚ) (start : Vec3 ℚ) (elapsed : ℚ) : Slot ℚ B :=
  { Slot.ofMover { m with origin := some start, elapsed, finished := true, done := none } with
    enabled := false }

/-- The actor is at the target: its mover is finished and disabled, and nobody waits for it. -/
structure Over (w w' : World ℚ B) (e : EntityId) (m : Mover ℚ) (start : Vec3 ℚ) : Prop where
  stands : w'.Stands e m.target
  takes : w'.Takes e
  alone : ∃ elapsed, w'.slots? e = some #[Slot.ofEnded m start elapsed]
  released : ∀ h, m.done = some h → w.waits.Made h → w'.waits.isComplete h = true

omit [Behavior ℚ B] in
/-- A move stays under way while the actor is left alone. -/
theorem Underway.spare (h : Underway w v e m start time) (spares : v.Spares e w') :
    Underway w w' e m start time := by
  obtain ⟨origin, alone, begun⟩ := h.alone
  refine ⟨spares.stands _ h.stands, spares.takes h.takes,
    ⟨origin, spares.slots.trans alone, begun⟩, fun k hk => ?_,
    fun k hk => spares.made k (h.made k hk)⟩
  refine (spares.held 0 (.mover { m with origin, elapsed := time }) k ?_ hk).trans (h.waiting k hk)
  rw [World.cell?, World.slots?_singleton_iff.1 alone 0]
  rfl

omit [Behavior ℚ B] in
/-- A move stays over while the actor is left alone. -/
theorem Over.spare (h : Over w v e m start) (spares : v.Spares e w') : Over w w' e m start := by
  obtain ⟨elapsed, alone⟩ := h.alone
  exact ⟨spares.stands _ h.stands, spares.takes h.takes, ⟨elapsed, spares.slots.trans alone⟩,
    fun k hk made => spares.complete k (h.released k hk made)⟩

/-- What an update does to an actor on the way. -/
theorem Underway.update (discreet : Discreet B e) (going : m.finished = false)
    (lasting : 0 < m.duration) (h : Underway w v e m start time) (later : 0 ≤ time + d)
    (own : SceneM.ownDelta e dt v = .ok (some d) v) : ∃ w',
    SceneM.updateActor (SceneM.respond SceneM.hookLimit) e dt v = .ok () w' ∧
      (time + d < m.duration → Underway w w' e m start (time + d)) ∧
      (m.duration ≤ time + d → Over w w' e m start) := by
  obtain ⟨u, announced, spares⟩ := exists_announced discreet v d
  have h := h.spare spares
  obtain ⟨origin, alone, begun⟩ := h.alone
  obtain ⟨n, hn⟩ : ∃ n : Mover ℚ, n = { m with origin, elapsed := time } := ⟨_, rfl⟩
  rw [← hn] at alone
  have there : u.slot? e 0 = some (.ofMover n) := World.slots?_singleton_iff.1 alone 0
  have placed : (u.transform? e).isSome := by
    obtain ⟨t, ht, -⟩ := h.stands.place
    rw [ht, Option.isSome_some]
  have run : SceneM.updateActor (SceneM.respond SceneM.hookLimit) e dt v
      = SceneM.respond SceneM.hookLimit (.hook e 0 (.update d)) u := by
    refine (SceneM.run_updateActor own announced h.takes.active alone).trans ?_
    exact (SceneM.dispatch_eq there).trans (if_pos rfl)
  have arrives : n.arrives d = true ↔ m.duration ≤ time + d := by
    rw [hn]
    exact Mover.arrives_iff (m := { m with origin, elapsed := time }) lasting later
  have waypoint : n.waypoint (m.reached start time) d = m.reached start (time + d) := by
    rw [hn]
    exact Mover.waypoint_eq (m := { m with origin, elapsed := time }) lasting later begun
  have carried : n.carried (m.reached start time) d
      = { m with origin := some start, elapsed := time + d } := by
    rw [hn, Mover.carried, begun]
  have going' : n.finished = false := hn ▸ going
  obtain ⟨depth, limit⟩ : ∃ depth, SceneM.hookLimit = depth + 2 := ⟨_, rfl⟩
  rw [run, limit]
  -- On the way the mover goes back into its slot as it was. When it arrives it is the first mover
  -- of its actor, so that it is itself that it disables.
  cases far : n.arrives d with
  | false =>
    obtain ⟨q, w', run', slots, waits, moved⟩ := SceneM.run_underway (depth + 1)
      placed there going' far rfl rfl
    obtain ⟨rfl, stands⟩ := h.stands.carried moved
    have takes := h.takes.carried moved
    refine ⟨w', run', fun _ => ⟨waypoint ▸ stands, takes, ⟨some start, ?_, rfl⟩, ?_, ?_⟩,
      fun past => ?_⟩
    · rw [World.slots?_replaced alone slots, carried]
      rfl
    · exact fun k hk => waits ▸ h.waiting k hk
    · exact fun k hk => waits ▸ h.made k hk
    · cases far.symm.trans (arrives.2 past)
  | true =>
    have isFirst : u.first? e .mover = some 0 := World.first?_eq_some_iff.2
      ⟨by rw [there, Option.map_some]; rfl, fun i hi => absurd hi (Nat.not_lt_zero i)⟩
    obtain ⟨q, w', run', slots, waits, moved⟩ := SceneM.run_arriving_first depth
      placed there going' far rfl rfl rfl isFirst
    obtain ⟨rfl, stands⟩ := h.stands.carried moved
    have past := arrives.1 far
    have takes := h.takes.carried moved
    refine ⟨w', run', fun short => absurd past (not_le.2 short),
      fun _ => ⟨?_, takes, ⟨time + d, ?_⟩, ?_⟩⟩
    · rw [waypoint, Mover.reached_of_le lasting past] at stands
      exact stands
    · rw [World.slots?_replaced alone slots, carried]
      rfl
    · intro k hk made
      rw [waits]
      exact World.isComplete_dropComponent_made (hn ▸ hk) (h.made k made)

/-- Once the move is over an update is only announced. -/
theorem Over.update (discreet : Discreet B e) (h : Over w v e m start)
    (own : SceneM.ownDelta e dt v = .ok (some d) v) : ∃ w',
    SceneM.emit (SceneM.respond SceneM.hookLimit) (.updated e d) v = .ok () w' ∧
      SceneM.updateActor (SceneM.respond SceneM.hookLimit) e dt v = .ok () w' ∧
      Over w w' e m start := by
  obtain ⟨u, announced, spares⟩ := exists_announced discreet v d
  have h := h.spare spares
  obtain ⟨elapsed, alone⟩ := h.alone
  have there : u.slot? e 0 = some (.ofEnded m start elapsed) :=
    World.slots?_singleton_iff.1 alone 0
  refine ⟨u, announced, (SceneM.run_updateActor own announced h.takes.active alone).trans ?_, h⟩
  exact (SceneM.dispatch_eq there).trans (if_neg nofun)

/-! ## Runs of updates -/

/-- Where the actor and its mover are depends on the time that has passed in all. -/
theorem Updated.moved (discreet : Discreet B e) (going : m.finished = false)
    (lasting : 0 < m.duration) (begins : Underway w w e m start 0) {deltas : List ℚ}
    (updated : Updated e w deltas w') (nonneg : ∀ d ∈ deltas, 0 ≤ d) :
    (deltas.sum < m.duration → Underway w w' e m start deltas.sum) ∧
      (m.duration ≤ deltas.sum → Over w w' e m start) := by
  induction updated with
  | start => exact ⟨fun _ => begins, fun past => absurd lasting (not_lt.2 past)⟩
  | @update deltas v dt d w' earlier own run ih =>
    have before : ∀ d ∈ deltas, 0 ≤ d := fun x hx => nonneg x (List.mem_append_left _ hx)
    have next : 0 ≤ d := nonneg d (List.mem_append_right _ (List.mem_singleton_self d))
    have later : 0 ≤ deltas.sum + d := add_nonneg (List.sum_nonneg before) next
    obtain ⟨short, past⟩ := ih before
    rw [List.sum_append, List.sum_singleton]
    -- The sum has not decreased: a move that was over before the update is still over.
    rcases lt_or_ge deltas.sum m.duration with early | late
    · obtain ⟨w'', run', results⟩ := (short early).update discreet going lasting later own
      cases run.symm.trans run'
      exact results
    · obtain ⟨w'', -, run', still⟩ := (past late).update discreet own
      cases run.symm.trans run'
      exact ⟨fun short => absurd short (by linarith), fun _ => still⟩
  | spare earlier spares ih =>
    obtain ⟨short, past⟩ := ih nonneg
    exact ⟨fun h => (short h).spare spares, fun h => (past h).spare spares⟩

/-- **Motion does not depend on the frame rate.** A mover that is alone on its actor and whose move
has not begun is updated by deltas that are not negative, and is left alone between the updates.
Then the actor is where the sum of the deltas takes it, however the sum is divided. Before the sum
reaches the duration the mover is on its way and is waited for; from the first update on that
reaches it the actor is at the target, the mover is finished and disabled, and its handle is
complete. Further updates come to an end, and once the move is over they are announced and do
nothing else. -/
theorem motion_is_frame_rate_independent (discreet : Discreet B e) (stands : w.Stands e start)
    (takes : w.Takes e) (alone : w.slots? e = some #[.ofMover m]) (unbegun : m.origin = none)
    (unspent : m.elapsed = 0) (going : m.finished = false) (lasting : 0 < m.duration)
    {deltas : List ℚ} (nonneg : ∀ d ∈ deltas, 0 ≤ d) (updated : Updated e w deltas w') :
    w'.Stands e (m.reached start deltas.sum) ∧
      (deltas.sum < m.duration → Underway w w' e m start deltas.sum) ∧
      (m.duration ≤ deltas.sum → Over w w' e m start) ∧
      ∀ dt d, SceneM.ownDelta e dt w' = .ok (some d) w' → 0 ≤ d → ∃ w'',
        SceneM.updateActor (SceneM.respond SceneM.hookLimit) e dt w' = .ok () w'' ∧
        (m.duration ≤ deltas.sum →
          SceneM.emit (SceneM.respond SceneM.hookLimit) (.updated e d) w' = .ok () w'') := by
  have begins : Underway w w e m start 0 := by
    refine ⟨Mover.reached_zero.symm ▸ stands, takes, ⟨none, ?_, Mover.reached_zero⟩,
      fun _ _ => rfl, fun _ made => made⟩
    rw [alone, ← unbegun, ← unspent]
  obtain ⟨short, past⟩ := updated.moved discreet going lasting begins nonneg
  have spent : 0 ≤ deltas.sum := List.sum_nonneg nonneg
  refine ⟨?_, short, past, fun dt d own later => ?_⟩
  · rcases lt_or_ge deltas.sum m.duration with early | late
    · exact (short early).stands
    · exact Mover.reached_of_le lasting late ▸ (past late).stands
  · rcases lt_or_ge deltas.sum m.duration with early | late
    · obtain ⟨w'', run, -⟩ :=
        (short early).update discreet going lasting (add_nonneg spent later) own
      exact ⟨w'', run, fun late => absurd early (not_lt.2 late)⟩
    · obtain ⟨w'', announced, run, -⟩ := (past late).update discreet own
      exact ⟨w'', run, fun _ => announced⟩

end Motion

/-! ## A stride -/

/-- A mover that takes an actor somewhere in two seconds, ever faster. -/
def strider : Mover ℚ :=
  .start ⟨8, 0, 0⟩ 2 .quadIn (some (.named 1))

/-- A scene with an actor that is to go there. -/
def beforeStriding : World ℚ Empty :=
  let w := ((World.bare.apply (.spawn (.named "a"))).2.apply (.nameWait 1)).2
  (w.apply (.add ⟨0⟩ (.mover strider))).2

/-- Nobody watches the actor of this scene. -/
theorem discreet_empty (e : EntityId) : Discreet Empty e :=
  fun _ w => ⟨w, rfl, fun _ h => h, rfl, fun h => h, fun _ h => h, fun _ h => h,
    fun _ _ _ _ _ => rfl⟩

/-- A quarter of the time takes the actor a sixteenth of the way, and the rest all of it. -/
theorem motion_is_frame_rate_independent_strides : ∃ v w' : World ℚ Empty,
    Updated ⟨0⟩ beforeStriding [1 / 2] v ∧ v.Stands ⟨0⟩ ⟨1 / 2, 0, 0⟩ ∧
      Updated ⟨0⟩ beforeStriding [1 / 2, 3 / 2] w' ∧ w'.Stands ⟨0⟩ ⟨8, 0, 0⟩ ∧
      Over beforeStriding w' ⟨0⟩ strider ⟨0, 0, 0⟩ ∧ w'.waits.isComplete (.named 1) = true := by
  have checked : (match SceneM.updateActor (SceneM.respond SceneM.hookLimit) ⟨0⟩ (1 / 2)
      beforeStriding with
    | .ok () v => v.ownDelta? ⟨0⟩ (3 / 2) == some (3 / 2)
    | .error _ _ => false) = true := by decide +kernel
  split at checked
  · rename_i v run
    have own : SceneM.ownDelta ⟨0⟩ (1 / 2) beforeStriding = .ok (some (1 / 2)) beforeStriding :=
      congrArg (EStateM.Result.ok · beforeStriding)
        (by decide +kernel : beforeStriding.ownDelta? ⟨0⟩ (1 / 2) = some (1 / 2))
    have own' : SceneM.ownDelta ⟨0⟩ (3 / 2) v = .ok (some (3 / 2)) v :=
      congrArg (EStateM.Result.ok · v) (eq_of_beq checked)
    have stands : beforeStriding.Stands ⟨0⟩ ⟨0, 0, 0⟩ :=
      ⟨⟨_, rfl, rfl, rfl, fun _ hm => nomatch hm⟩, rfl⟩
    have takes : beforeStriding.Takes ⟨0⟩ := ⟨⟨_, rfl, rfl⟩, by decide +kernel⟩
    have first : Updated ⟨0⟩ beforeStriding [1 / 2] v := .update .start own run
    obtain ⟨there, -, -, next⟩ := motion_is_frame_rate_independent (discreet_empty ⟨0⟩) stands
      takes (m := strider) rfl rfl rfl rfl (by decide +kernel) (by decide +kernel) first
    obtain ⟨w', run', -⟩ := next (3 / 2) (3 / 2) own' (by decide +kernel)
    have second : Updated ⟨0⟩ beforeStriding [1 / 2, 3 / 2] w' := .update first own' run'
    obtain ⟨there', -, past, -⟩ := motion_is_frame_rate_independent (discreet_empty ⟨0⟩) stands
      takes (m := strider) rfl rfl rfl rfl (by decide +kernel) (by decide +kernel) second
    have past := past (by decide +kernel)
    have quarter : strider.reached ⟨0, 0, 0⟩ [1 / 2].sum = ⟨1 / 2, 0, 0⟩ := by decide +kernel
    have whole : strider.reached ⟨0, 0, 0⟩ [1 / 2, 3 / 2].sum = ⟨8, 0, 0⟩ := by decide +kernel
    exact ⟨v, w', first, quarter ▸ there, second, whole ▸ there', past,
      past.released _ rfl rfl⟩
  · cases checked

end SheepScene
