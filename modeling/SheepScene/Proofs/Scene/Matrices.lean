import SheepScene.Proofs.Geometry.Inverses
import SheepScene.Proofs.Scene.Looking
import SheepScene.Proofs.Scene.Moments

/-!
# Matrices that are kept

Matrices may be out of date where entities were dropped without the tree being told. Even there the
matrices of a place fit together (`Transform.Matched`): the one into the world is affine, and an
inverse is kept only beside the matrix that it belongs to. Queries answer and keep such matrices,
setters and changes of the tree at most forget them, and so it is at every instant of every scene
(`AtInstant.matched`). What is kept is what is answered (`World.localToWorld_known`,
`World.Matched.worldToLocal_of_localToWorld`).
-/

set_option autoImplicit false

namespace SheepScene

/-- The matrices of a place fit together. -/
structure Transform.Matched (t : Transform ℚ) : Prop where
  affine : ∀ m, t.localToWorld = some m → m.Affine
  inverse : ∀ n, t.worldToLocal = some n →
    ∃ m, t.localToWorld = some m ∧ n = m.inverseOrIdentity

/-- Where no matrix is kept, all fit. -/
theorem Transform.Matched.of_none {t : Transform ℚ} (matrix : t.localToWorld = none)
    (inverse : t.worldToLocal = none) : t.Matched :=
  ⟨fun _ hm => (nomatch matrix.symm.trans hm), fun _ hn => (nomatch inverse.symm.trans hn)⟩

namespace World

/-! ## What is known is answered -/

section Known

variable {K B : Type} [Scalar K] {w : World K B} {e : EntityId} {m : Mat4 K}

/-- A known matrix is answered, however many links may be followed, and nothing changes. -/
theorem localToWorldFrom_known (steps : Nat) (known : w.matrix? e = some m) :
    localToWorldFrom steps w e = (some m, w) := by
  obtain ⟨t, place, known⟩ := Option.bind_eq_some_iff.1 known
  rw [localToWorldFrom.eq_def, place]
  dsimp only
  rw [known]

/-- Asking for a matrix that is known changes nothing. -/
theorem localToWorld_known (known : w.matrix? e = some m) : w.localToWorld e = (some m, w) :=
  localToWorldFrom_known _ known

/-- What is answered is known from then on. -/
theorem matrix?_localToWorld (answer : (w.localToWorld e).1 = some m) :
    (w.localToWorld e).2.matrix? e = some m := by
  have place : (w.transform? e).isSome := by
    by_contra none
    rw [localToWorld_none (Option.not_isSome_iff_eq_none.1 none)] at answer
    cases answer
  obtain ⟨m', answer', known⟩ := exists_matrix?_localToWorld place
  cases answer.symm.trans answer'
  exact known

/-- Who has a place has a matrix. -/
theorem transform?_of_localToWorld_none (nothing : (w.localToWorld e).1 = none) :
    w.transform? e = none := by
  by_contra place
  obtain ⟨m, answer, -⟩ := exists_matrix?_localToWorld (Option.isSome_iff_ne_none.2 place)
  cases nothing.symm.trans answer

/-! ## What is not known is composed -/

/-- What is asked of the parent, if there is one and a link may be followed. -/
def askAbove (steps : Nat) (w : World K B) (parent : Option EntityId) :
    Option (Mat4 K) × World K B :=
  match parent, steps with
  | some parent, steps + 1 => localToWorldFrom steps w parent
  | _, _ => (none, w)

/-- Either nobody above is asked, or the parent is. -/
theorem askAbove_cases (steps : Nat) (w : World K B) (parent : Option EntityId) :
    askAbove steps w parent = (none, w) ∨ ∃ p n, parent = some p ∧ steps = n + 1 ∧
      askAbove steps w parent = localToWorldFrom n w p := by
  cases parent with
  | none => exact .inl rfl
  | some p =>
    cases steps with
    | zero => exact .inl rfl
    | succ n => exact .inr ⟨p, n, rfl, rfl, rfl⟩

/-- Keeping a matrix without its inverse. -/
def keepMatrix (w : World K B) (e : EntityId) (m : Mat4 K) : World K B :=
  w.modifyTransform e fun t => { t with localToWorld := some m, worldToLocal := none }

/-- A matrix that is not known is composed from above, and kept. -/
theorem localToWorldFrom_unknown {t : Transform K} (steps : Nat) (place : w.transform? e = some t)
    (unknown : t.localToWorld = none) :
    let above := askAbove steps (w.applyLayout e) t.parent
    let matrix := composed above.1 (((w.applyLayout e).transform? e).getD t).localMatrix
    localToWorldFrom steps w e = (some matrix, above.2.keepMatrix e matrix) := by
  rw [localToWorldFrom.eq_def, place]
  dsimp only
  rw [unknown]
  rfl

end Known

/-! ## Worlds with matrices that fit together -/

variable {B : Type}

/-- The matrices of all places fit together. -/
def Matched (w : World ℚ B) : Prop :=
  ∀ e t, w.transform? e = some t → t.Matched

/-- Composing affine matrices gives an affine one. -/
theorem affine_composed {above : Option (Mat4 ℚ)} {own : Mat4 ℚ}
    (upper : ∀ m, above = some m → m.Affine) (lower : own.Affine) :
    (composed above own).Affine := by
  cases above with
  | none => exact lower
  | some m => exact (upper m rfl).mul lower

namespace Matched

variable {w w' : World ℚ B}

/-- Matrices fit together as long as the places are the same. -/
theorem congr (h : w.Matched) (same : ∀ e, w'.transform? e = w.transform? e) : w'.Matched :=
  fun e t place => h e t ((same e).symm.trans place)

/-- Matrices fit together as long as the scene is the same. -/
theorem same (h : w.Matched) (same : SameScene w w') : w'.Matched :=
  h.congr same.transform?

/-- A note in the journal keeps matrices fitting. -/
theorem record (h : w.Matched) (event : Event ℚ B) : (w.record event).Matched :=
  h.congr fun _ => rfl

/-- Changing a place whose matrices fit together afterwards. -/
theorem modifyTransform (h : w.Matched) {e : EntityId} {f : Transform ℚ → Transform ℚ}
    (fits : ∀ t, w.transform? e = some t → (f t).Matched) : (w.modifyTransform e f).Matched := by
  intro x t place
  rw [transform?_modifyTransform] at place
  split at place
  · rename_i here
    obtain ⟨t₀, place₀, rfl⟩ := Option.map_eq_some_iff.1 place
    exact fits t₀ (here ▸ place₀)
  · exact h x t place

/-- Changing a place but not its matrices. -/
theorem modifyPlace (h : w.Matched) (e : EntityId) {f : Transform ℚ → Transform ℚ}
    (keeps : ∀ t, ((f t).localToWorld, (f t).worldToLocal) = (t.localToWorld, t.worldToLocal)) :
    (w.modifyTransform e f).Matched := by
  refine h.modifyTransform fun t place => ?_
  obtain ⟨matrix, inverse⟩ := Prod.mk.inj (keeps t)
  obtain ⟨affine, beside⟩ := h e t place
  exact ⟨fun m hm => affine m (matrix ▸ hm), fun n hn => matrix ▸ beside n (inverse ▸ hn)⟩

/-- Telling a subtree that it is stale keeps matrices fitting. -/
theorem invalidate (h : w.Matched) (e : EntityId) : (w.invalidate e).Matched := by
  refine List.foldlRecOn (motive := World.Matched) _ _ h fun v hv x _ => ?_
  exact hv.modifyTransform fun t _ => .of_none rfl rfl

/-! ## Queries -/

/-- Laying out an entity keeps matrices fitting. -/
theorem applyLayout (h : w.Matched) (e : EntityId) : (w.applyLayout e).Matched := by
  unfold World.applyLayout
  split
  · exact h.modifyPlace e fun _ => rfl
  · exact h

/-- Keeping an affine matrix keeps matrices fitting. -/
theorem keepMatrix (h : w.Matched) (e : EntityId) {m : Mat4 ℚ} (affine : m.Affine) :
    (w.keepMatrix e m).Matched := by
  refine h.modifyTransform fun t _ => ⟨fun m' same => ?_, fun n hn => (nomatch hn)⟩
  exact Option.some.inj same ▸ affine

/-- Climbing answers with an affine matrix and keeps them fitting. -/
theorem localToWorldFrom (h : w.Matched) (steps : Nat) (e : EntityId) :
    (∀ m, (World.localToWorldFrom steps w e).1 = some m → m.Affine) ∧
      (World.localToWorldFrom steps w e).2.Matched := by
  -- by the links that may be followed: the matrix above is affine, and so is the place's own
  induction steps using Nat.strongRecOn generalizing w e with
  | ind steps ih =>
    have nothing : ∀ m, (none : Option (Mat4 ℚ)) = some m → m.Affine := fun m hm => nomatch hm
    cases place : w.transform? e with
    | none =>
      rw [World.localToWorldFrom.eq_def, place]
      exact ⟨nothing, h⟩
    | some t =>
      cases known : t.localToWorld with
      | some m =>
        rw [localToWorldFrom_known steps (w := w) (m := m) (by rw [matrix?, place]; exact known)]
        exact ⟨fun m' same => (h e t place).affine m' (known.trans same), h⟩
      | none =>
        have above : (∀ m, (askAbove steps (w.applyLayout e) t.parent).1 = some m → m.Affine) ∧
            (askAbove steps (w.applyLayout e) t.parent).2.Matched := by
          rcases askAbove_cases steps (w.applyLayout e) t.parent with none | ⟨p, n, -, rfl, asked⟩
          · exact none ▸ ⟨nothing, h.applyLayout e⟩
          · exact asked ▸ ih n (Nat.lt_succ_self n) (h.applyLayout e) p
        have affine : ∀ t : Transform ℚ, (composed (askAbove steps (w.applyLayout e) _).1
            t.localMatrix).Affine := fun t => affine_composed above.1 (Mat4.affine_ofParts ..)
        rw [localToWorldFrom_unknown steps place known]
        exact ⟨fun m same => Option.some.inj same ▸ affine _, above.2.keepMatrix e (affine _)⟩

/-- Matrices into the world are affine. -/
theorem affine (h : w.Matched) {e : EntityId} {m : Mat4 ℚ}
    (answer : (w.localToWorld e).1 = some m) : m.Affine :=
  (h.localToWorldFrom _ e).1 m answer

/-- Asking for a world matrix keeps matrices fitting. -/
theorem localToWorld (h : w.Matched) (e : EntityId) : (w.localToWorld e).2.Matched :=
  (h.localToWorldFrom _ e).2

/-- A matrix from the world is the inverse of the one into it, which is known from then on. -/
theorem worldToLocal_of_localToWorld (h : w.Matched) {e : EntityId} {m : Mat4 ℚ}
    (answer : (w.localToWorld e).1 = some m) :
    (w.worldToLocal e).1 = some m.inverseOrIdentity ∧
      (w.worldToLocal e).2.matrix? e = some m ∧ (w.worldToLocal e).2.Matched := by
  have kept := matrix?_localToWorld answer
  have matched := h.localToWorld e
  unfold World.worldToLocal
  split
  · rename_i n hn
    obtain ⟨t, place, hn⟩ := Option.bind_eq_some_iff.1 hn
    split at hn
    · cases hn
    · obtain ⟨m', known, rfl⟩ := (h e t place).inverse n hn
      have known' : w.matrix? e = some m' := by rw [matrix?, place]; exact known
      rw [localToWorld_known known'] at answer
      cases answer
      exact ⟨rfl, known', h⟩
  · rcases asked : w.localToWorld e with ⟨matrix, w'⟩
    rw [asked] at answer kept matched
    cases answer
    obtain ⟨t, place, known⟩ := Option.bind_eq_some_iff.1 kept
    refine ⟨rfl, ?_, matched.modifyTransform fun t' place' => ?_⟩
    · rw [matrix?, transform?_modifyTransform, if_pos rfl, place]
      exact known
    · cases place.symm.trans place'
      refine ⟨(matched e t place).affine, fun n hn => ⟨m, known, ?_⟩⟩
      exact (Option.some.inj hn).symm

/-- Asking for an inverse keeps matrices fitting. -/
theorem worldToLocal (h : w.Matched) (e : EntityId) : (w.worldToLocal e).2.Matched := by
  cases answer : (w.localToWorld e).1 with
  | some m => exact (h.worldToLocal_of_localToWorld answer).2.2
  | none =>
    rw [worldToLocal_none (transform?_of_localToWorld_none answer)]
    exact h

/-- The answer about the inverse is the inverse of the world matrix, where there is one. -/
theorem fst_worldToLocal (h : w.Matched) (e : EntityId) :
    (w.worldToLocal e).1 = (w.localToWorld e).1.map Mat4.inverseOrIdentity := by
  cases answer : (w.localToWorld e).1 with
  | some m => exact (h.worldToLocal_of_localToWorld answer).1
  | none =>
    rw [worldToLocal_none (transform?_of_localToWorld_none answer)]
    rfl

/-- Asking for a world rectangle keeps matrices fitting. -/
theorem worldRect (h : w.Matched) (e : EntityId) : (w.worldRect e).2.Matched := by
  unfold World.worldRect
  split
  · exact h
  · rename_i rect _
    have low : (w.localToWorldPoint e (rect.low.lift 0)).2.Matched := h.localToWorld e
    split
    · rename_i asked
      rw [asked] at low
      exact low
    · rename_i v asked
      rw [asked] at low
      have high : (v.localToWorldPoint e (rect.high.lift 0)).2.Matched := low.localToWorld e
      split
      · rename_i asked
        rw [asked] at high
        exact high
      · rename_i asked
        rw [asked] at high
        exact high

/-- Asking for a snapshot keeps matrices fitting. -/
theorem snapshot (h : w.Matched) : w.snapshot.2.Matched := by
  have row : ∀ {v : World ℚ B}, v.Matched → ∀ e, (v.row e).2.Matched := by
    intro v hv e
    unfold World.row
    split
    · exact hv
    · dsimp only
      split
      · exact hv
      · exact hv.localToWorld e
  unfold World.snapshot
  exact List.foldlRecOn (motive := fun rows : _ × World ℚ B => rows.2.Matched) _ _ h
    fun rows hr e _ => row hr e

/-! ## Setters -/

/-- Placing an entity by its local parts keeps matrices fitting. -/
theorem place (h : w.Matched) (e : EntityId) (placement : Placement ℚ) :
    (w.place e placement).Matched := by
  unfold World.place
  split
  · exact (h.modifyPlace e fun _ => by cases placement <;> rfl).invalidate e
  · exact h.record _

/-- Carrying a placement into the space of a parent keeps matrices fitting. -/
theorem inParentSpace (h : w.Matched) (parent : EntityId) (placement : Placement ℚ) :
    (w.inParentSpace parent placement).2.Matched := by
  cases placement with
  | position v => exact h.worldToLocal parent
  | rotation q => exact h
  | scale v => exact h

/-- Placing an entity in the world keeps matrices fitting. -/
theorem placeInWorld (h : w.Matched) (e : EntityId) (placement : Placement ℚ) :
    (w.placeInWorld e placement).Matched := by
  unfold World.placeInWorld
  split
  · exact h.record _
  · split
    · exact h.place e placement
    · exact (h.inParentSpace _ placement).place e _

/-- Moving an entity keeps matrices fitting. -/
theorem translate (h : w.Matched) (e : EntityId) (offset : Vec3 ℚ) (space : Space) :
    (w.translate e offset space).Matched := by
  have asked : (w.worldPosition e).2.Matched := h.localToWorld e
  unfold World.translate
  split
  · split
    · exact h.place e _
    · exact h
  · split
    · rename_i found
      rw [found] at asked
      exact asked.placeInWorld e _
    · rename_i found
      rw [found] at asked
      exact asked

/-- Turning an entity keeps matrices fitting. -/
theorem rotate (h : w.Matched) (e : EntityId) (rotation : Quat ℚ) (space : Space) :
    (w.rotate e rotation space).Matched := by
  unfold World.rotate
  split
  · split
    · exact h.place e _
    · exact h
  · split
    · exact h.placeInWorld e _
    · exact h

/-- Turning an entity around a point keeps matrices fitting. -/
theorem rotateAround (h : w.Matched) (e : EntityId) (point : Vec3 ℚ) (rotation : Quat ℚ) :
    (w.rotateAround e point rotation).Matched := by
  have asked : (w.worldPosition e).2.Matched := h.localToWorld e
  unfold World.rotateAround
  split
  · rename_i found
    rw [found] at asked
    exact asked
  · rename_i found
    rw [found] at asked
    exact (asked.placeInWorld e _).rotate e rotation .world

/-- Changing an anchoring keeps matrices fitting. -/
theorem changeAnchoring (h : w.Matched) (e : EntityId) (change : AnchoringChange ℚ) :
    (w.changeAnchoring e change).Matched := by
  unfold World.changeAnchoring
  split
  · refine invalidate (h.congr fun x => ?_) e
    rw [transform?, entity?_modifyEntity]
    split
    · cases entity : w.entity? x <;> simp [transform?, entity]
    · rfl
  · exact h.record _

/-- Changing the viewport keeps matrices fitting. -/
theorem setViewport (h : w.Matched) (viewport : Viewport) : (w.setViewport viewport).Matched :=
  List.foldlRecOn (motive := World.Matched) _ _ (h.congr fun _ => rfl) fun _ hv e _ =>
    hv.invalidate e

/-! ## Changes of the tree -/

/-- Leaving a parent keeps matrices fitting. -/
theorem leave (h : w.Matched) (e : EntityId) : (w.leave e).Matched := by
  unfold World.leave
  split
  · exact h.modifyPlace _ fun _ => rfl
  · exact h

/-- Linking up to a parent keeps matrices fitting. -/
theorem linkUp (h : w.Matched) (e : EntityId) (parent : Option EntityId) :
    (w.linkUp e parent).Matched :=
  h.modifyPlace e fun _ => rfl

/-- Reparenting keeps matrices fitting. -/
theorem setParent (h : w.Matched) (e : EntityId) (parent : Option EntityId) :
    (w.setParent e parent).2.Matched := by
  have linked := (h.leave e).linkUp e parent
  unfold World.setParent
  split
  · exact h.record _
  · refine invalidate ?_ e
    unfold World.join
    split
    · exact linked.modifyPlace _ fun _ => rfl
    · exact linked

/-- Removing a child keeps matrices fitting. -/
theorem removeChild (h : w.Matched) (parent child : EntityId) :
    (w.removeChild parent child).Matched := by
  unfold World.removeChild
  split
  · exact h.setParent child none
  · exact h

/-- Creating an entity whose own matrices fit keeps matrices fitting. -/
theorem create (h : w.Matched) {entity : Entity ℚ B}
    (unknown : ∀ t, entity.transform = some t → t.Matched) : (w.create entity).2.Matched := by
  intro x t place
  rw [transform?, entity?_create] at place
  split at place
  · exact unknown t place
  · exact h x t place

/-- Spawning an actor keeps matrices fitting. -/
theorem spawn (h : w.Matched) (spec : ActorSpec ℚ) : (w.spawn spec).2.Matched := by
  have created : ∀ {entity : Entity ℚ B},
      entity.transform = some (.ofParts spec.position spec.rotation spec.scale) →
      World.Matched { (w.create entity).2 with
        roster := some ((w.create entity).2.actors ++ [(w.create entity).1]) } := by
    intro entity place
    have unknown : ∀ t, entity.transform = some t → t.Matched := by
      intro t ht
      cases place.symm.trans ht
      exact .of_none rfl rfl
    exact (h.create unknown).congr fun _ => rfl
  unfold World.spawn
  dsimp only
  split
  · exact (created rfl).setParent _ _
  · exact created rfl

/-- Despawning keeps matrices fitting. -/
theorem despawn (h : w.Matched) (e : EntityId) : (w.despawn e).2.Matched := by
  intro x t place
  rw [transform?, entity?_despawn] at place
  split at place
  · cases place
  · exact h x t place

/-- Reclaiming keeps matrices fitting. -/
theorem reclaim (h : w.Matched) (e : EntityId) : (w.reclaim e).Matched := by
  have cut : (w.cut e).Matched := (h.leave e).modifyPlace e fun _ => rfl
  have detached : (w.detach e).Matched := by
    refine List.foldlRecOn (motive := World.Matched) _ _ cut fun v hv x _ => ?_
    exact (hv.linkUp x none).invalidate x
  exact (detached.despawn e).congr fun _ => rfl

/-! ## All changes -/

/-- In an empty scene there is nothing to fit together. -/
theorem of_empty (entities : w.entities = #[]) : w.Matched := by
  intro e t place
  unfold transform? entity? at place
  simp [entities] at place

variable [Behavior ℚ B]

/-- Every edit keeps matrices fitting together. -/
theorem apply (h : w.Matched) (x : Edit ℚ B) : (w.apply x).2.Matched := by
  cases x with
  | spawn spec => exact h.spawn spec
  | spawnTransform position rotation scale =>
    refine h.create fun t ht => ?_
    cases ht
    exact .of_none rfl rfl
  | spawnBare => exact h.create fun t ht => nomatch ht
  | despawn e => exact h.despawn e
  | place e placement => exact h.place e placement
  | placeInWorld e placement => exact h.placeInWorld e placement
  | worldPosition e | localToWorld e => exact h.localToWorld e
  | worldToLocal e => exact h.worldToLocal e
  | localToWorldPoint e v => exact h.localToWorld e
  | worldToLocalPoint e v => exact h.worldToLocal e
  | setParent e parent => exact h.setParent e parent
  | removeChild parent e => exact h.removeChild parent e
  | translate e offset space => exact h.translate e offset space
  | rotate e rotation space => exact h.rotate e rotation space
  | rotateAround e point rotation => exact h.rotateAround e point rotation
  | invalidate e => exact h.invalidate e
  | changeAnchoring e change => exact h.changeAnchoring e change
  | worldRect e | rectContains e point => exact h.worldRect e
  | setViewport viewport => exact h.setViewport viewport
  | snapshot => exact h.snapshot
  | _ =>
    refine h.same (SameScene.apply w ?_)
    trivial

end Matched

end World

section Scenes

variable {B : Type} [Behavior ℚ B]

/-- No change lets matrices come apart. -/
theorem Change.matched {scope : Scope ℚ B} {x y : Instant ℚ B} (change : Change scope x y)
    (h : x.world.Matched) : y.world.Matched := by
  cases change with
  | edit x _ => exact h.apply x
  | record _ | dequeue | lend | restore _ => exact h.congr fun _ => rfl
  | reclaim e => exact h.reclaim e
  | switch => exact h.same (.modifyActor _ _ _)
  | enable => exact h.same (.modifySlots _ _ _)
  | putOff | start => exact (h.same (.modifySlots _ _ _)).record _
  | resume => exact ((h.record _).same (.modifySlots _ _ _)).record _
  | finish => exact (h.record _).same (.modifySlots _ _ _)
  | vanish component => exact (h.record _).same (.dropComponent _ component)

/-- The matrices of all places fit together at every instant. -/
theorem AtInstant.matched {w : World ℚ B} (h : AtInstant w) : w.Matched :=
  h.keeps (fun _ entities _ => .of_empty entities) Change.matched

end Scenes

end SheepScene
