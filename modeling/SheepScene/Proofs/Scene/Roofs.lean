import SheepScene.Proofs.Scene.Matrices
import SheepScene.Proofs.Scene.Parenting

/-!
# What a place is composed with

The matrix of a place that has to be computed is composed of its own and of what is above it. Where
links form no cycle, asking the parent by way of a child is the same as asking the parent itself
(`World.localToWorldFrom_size`): the steps that are allowed reach all places on the way up. From
then on what is above the child is known (`World.Roofed`), and it stays so when the child is put
somewhere else, since this forgets the matrices below the child only (`World.Roofed.place`).
-/

set_option autoImplicit false

namespace SheepScene

namespace World

variable {K B : Type} {w w' : World K B} {e : EntityId}

/-! ## Places on the way up -/

/-- How many places there are on the way up from an entity. -/
def placesFrom (w : World K B) (steps : Nat) (e : EntityId) : Nat :=
  (w.lineageFrom steps e).countP fun x => (w.transform? x).isSome

/-- One step up there is one place fewer. -/
theorem placesFrom_succ {p : EntityId} (up : w.parent? e = some p) (steps : Nat) :
    w.placesFrom (steps + 1) e = w.placesFrom steps p + 1 := by
  have walk : w.lineageFrom (steps + 1) e = e :: w.lineageFrom steps p := by rw [lineageFrom, up]
  rw [placesFrom, walk]
  exact List.countP_cons_of_pos (transform?_of_above up)

/-- Places on the way up depend only on the ties. -/
theorem placesFrom_congr (ties : SameTies w w') (steps : Nat) (e : EntityId) :
    w'.placesFrom steps e = w.placesFrom steps e := by
  rw [placesFrom, lineageFrom_congr ties.parents]
  exact List.countP_congr fun x _ => by rw [ties.places]

/-- Of known entities there are no more on the way up than there are at all. -/
theorem countP_lineageFrom_le (acyclic : ∀ x, ¬ Relation.TransGen w.Above x x)
    {known : EntityId → Bool} (bound : ∀ x, known x = true → x.index < w.entities.size)
    (steps : Nat) (e : EntityId) : (w.lineageFrom steps e).countP known ≤ w.entities.size := by
  rw [List.countP_eq_length_filter, ← List.length_map EntityId.index]
  have distinct : (((w.lineageFrom steps e).filter known).map EntityId.index).Nodup :=
    ((nodup_lineageFrom acyclic steps e).filter _).map fun a b same => congrArg EntityId.mk same
  refine (distinct.subperm fun i hi => ?_).length_le.trans (List.length_range ..).le
  obtain ⟨x, hx, rfl⟩ := List.mem_map.1 hi
  exact List.mem_range.2 (bound x (List.mem_filter.1 hx).2)

/-- There are no more places on the way up than entities. -/
theorem placesFrom_le (acyclic : ∀ x, ¬ Relation.TransGen w.Above x x) (steps : Nat)
    (e : EntityId) : w.placesFrom steps e ≤ w.entities.size :=
  countP_lineageFrom_le acyclic (fun _ => index_lt_of_transform?) steps e

section Steps

variable [Scalar K]

/-- Climbing from where there is no place finds nothing. -/
theorem localToWorldFrom_none (steps : Nat) (lost : w.transform? e = none) :
    localToWorldFrom steps w e = (none, w) := by
  rw [localToWorldFrom.eq_def, lost]

/-- It does not matter how many steps are allowed where it does not matter to the parent. -/
theorem localToWorldFrom_eq_of_parent {a b : Nat} (asked : ∀ p, w.parent? e = some p →
    askAbove a (w.applyLayout e) (some p) = askAbove b (w.applyLayout e) (some p)) :
    localToWorldFrom a w e = localToWorldFrom b w e := by
  cases place : w.transform? e with
  | none => rw [localToWorldFrom_none _ place, localToWorldFrom_none _ place]
  | some t =>
    have up : w.parent? e = t.parent := by rw [parent?, place, Option.bind_some]
    cases known : t.localToWorld with
    | some m =>
      have known : w.matrix? e = some m := by rw [matrix?, place]; exact known
      rw [localToWorldFrom_known _ known, localToWorldFrom_known _ known]
    | none =>
      rw [localToWorldFrom_unknown _ place known, localToWorldFrom_unknown _ place known]
      cases parent : t.parent with
      | none => cases a <;> cases b <;> rfl
      | some p => rw [asked p (up.trans parent)]

/-- One step more makes no difference where the steps reach all places on the way up. -/
theorem localToWorldFrom_succ {steps : Nat} (enough : w.placesFrom (steps + 1) e ≤ steps + 1) :
    localToWorldFrom (steps + 1) w e = localToWorldFrom steps w e := by
  induction steps generalizing w e with
  | zero =>
    refine localToWorldFrom_eq_of_parent fun p up => ?_
    -- the entity is the one place there is
    have lost : w.transform? p = none := by
      by_contra place
      rw [placesFrom_succ up, placesFrom, lineageFrom, List.countP_singleton] at enough
      rw [if_pos (Option.isSome_iff_ne_none.2 place)] at enough
      omega
    have lost : (w.applyLayout e).transform? p = none := by
      rw [← Option.not_isSome_iff_eq_none,
        (settles_applyLayout w e).sameLinks.onlyPlaces.isSome_transform?, lost]
      exact Bool.false_ne_true
    exact localToWorldFrom_none 0 lost
  | succ steps ih =>
    refine localToWorldFrom_eq_of_parent fun p up => ih ?_
    rw [placesFrom_succ up] at enough
    rw [placesFrom_congr (.of_settles (settles_applyLayout w e))]
    exact Nat.le_of_succ_le_succ enough

/-- A parent that is asked by way of a child answers as it does by itself. -/
theorem localToWorldFrom_size (acyclic : ∀ x, ¬ Relation.TransGen w.Above x x) {steps : Nat}
    (size : w.entities.size = steps + 1) (e : EntityId) :
    localToWorldFrom steps w e = w.localToWorld e := by
  rw [localToWorld, size, localToWorldFrom_succ (size ▸ placesFrom_le acyclic (steps + 1) e)]

end Steps

/-! ## Putting an entity somewhere in its parent's space -/

/-- Placing an entity changes its place and tells all below that they are stale. -/
theorem place_eq {t : Transform K} (place : w.transform? e = some t) (placement : Placement K) :
    w.place e placement = (w.modifyTransform e (placed placement)).invalidate e := by
  rw [World.place, place]

/-- The entity is where it was put, and its matrices are not known any more. -/
theorem transform?_place_self {t : Transform K} (place : w.transform? e = some t)
    (placement : Placement K) :
    (w.place e placement).transform? e = some (placed placement t).invalidated := by
  rw [place_eq place, transform?_invalidate, if_pos, transform?_modifyTransform, if_pos rfl, place]
  · rfl
  · exact self_mem_subtreeFrom _ e

/-- All others keep what does not depend on matrices. -/
theorem map_transform?_place {α : Type} {g : Transform K → α}
    (blind : ∀ t : Transform K, g t.invalidated = g t) {x : EntityId} (other : x ≠ e)
    (placement : Placement K) :
    ((w.place e placement).transform? x).map g = (w.transform? x).map g := by
  unfold World.place
  split
  · rw [transform?_invalidate, transform?_modifyTransform, if_neg other]
    split
    · rw [Option.map_map]
      exact congrArg (Option.map · _) (funext blind)
    · rfl
  · rfl

/-- Whatever is not below the entity keeps its matrices, too. -/
theorem Traceable.matrix?_place (h : w.Traceable) {x : EntityId} (apart : ¬ w.Below x e)
    (placement : Placement K) : (w.place e placement).matrix? x = w.matrix? x := by
  have other : x ≠ e := by
    rintro rfl
    exact apart .refl
  unfold World.place
  split
  · rename_i t place
    have moved : SameLinks w (w.modifyTransform e (World.placed placement)) :=
      AgreesOn.modifyTransform fun x t hx ht => by
        cases placement <;> simp only [Entity.linked, ht, World.placed, Option.map_some]
    rw [matrix?, transform?_invalidate, subtree_congr moved.size moved.children]
    split
    · rename_i below
      have lost : w.transform? x = none := by
        by_contra there
        exact apart (h.below_of_mem_subtreeFrom (Option.isSome_iff_ne_none.2 there) below).2
      rw [transform?_modifyTransform, if_neg other, matrix?, lost]
      rfl
    · rw [transform?_modifyTransform, if_neg other, matrix?]
  · rfl

/-! ## Roofs -/

/-- What is above an entity is known: nothing, or the matrix that is kept for its parent. -/
inductive Roofed (w : World K B) (e : EntityId) : Option (Mat4 K) → Prop where
  | root : w.parent? e = none → Roofed w e none
  | lost {p} : w.parent? e = some p → w.transform? p = none → Roofed w e none
  | under {p m} : w.parent? e = some p → w.matrix? p = some m → Roofed w e (some m)

namespace Roofed

variable {above : Option (Mat4 K)}

/-- A roof stays where links stay and the matrix of the parent is still known. -/
theorem of_sameLinks (h : w.Roofed e above) (links : SameLinks w w')
    (kept : ∀ p m, w.parent? e = some p → w.matrix? p = some m → w'.matrix? p = some m) :
    w'.Roofed e above := by
  cases h with
  | root top => exact .root ((links.parent? e).trans top)
  | lost up lost =>
    refine .lost ((links.parent? e).trans up) ?_
    rw [← Option.not_isSome_iff_eq_none, links.onlyPlaces.isSome_transform?, lost]
    exact Bool.false_ne_true
  | under up known => exact .under ((links.parent? e).trans up) (kept _ _ up known)

/-- A roof stays while there is only looking. -/
theorem looked (h : w.Roofed e above) (seen : Looked w w') : w'.Roofed e above :=
  h.of_sameLinks seen.settles.sameLinks fun p m _ known => seen.known p m known

/-- Putting the entity somewhere does not touch its roof. -/
theorem place (h : w.Roofed e above) (traceable : w.Traceable) (placement : Placement K) :
    (w.place e placement).Roofed e above := by
  refine h.of_sameLinks (sameLinks_place w e placement) fun p m up known => ?_
  rw [traceable.matrix?_place (fun below => traceable.acyclic e (.head' up below)), known]

/-- Keeping a matrix for the entity does not touch its roof. -/
theorem keepMatrix (h : w.Roofed e above) (acyclic : ∀ x, ¬ Relation.TransGen w.Above x x)
    (m : Mat4 K) : (w.keepMatrix e m).Roofed e above := by
  have settles : Settles w (w.keepMatrix e m) := settles_keepMatrices w e fun _ => (some m, none)
  refine h.of_sameLinks settles.sameLinks fun p m' up known => ?_
  have other : p ≠ e := by
    rintro rfl
    exact acyclic p (.single up)
  rw [matrix?, World.keepMatrix, transform?_modifyTransform, if_neg other]
  exact known

end Roofed

section Asking

variable [Scalar K]

/-- Asks the parent of an entity for its matrix, if there is one. -/
def askParent (w : World K B) (e : EntityId) : Option (Mat4 K) × World K B :=
  match w.parent? e with
  | some p => w.localToWorld p
  | none => (none, w)

/-- The parent is asked for its world matrix. -/
theorem askParent_of_parent {p : EntityId} (up : w.parent? e = some p) :
    w.askParent e = w.localToWorld p := by
  rw [askParent, up]

/-- Asking it is only looking. -/
theorem looked_askParent (w : World K B) (e : EntityId) : Looked w (w.askParent e).2 := by
  unfold askParent
  split
  · exact looked_localToWorld w _
  · exact .refl w

/-- Once the parent has been asked there is a roof. -/
theorem roofed_askParent (w : World K B) (e : EntityId) :
    (w.askParent e).2.Roofed e (w.askParent e).1 := by
  cases up : w.parent? e with
  | none =>
    rw [askParent, up]
    exact .root up
  | some p =>
    rw [askParent_of_parent up]
    cases place : w.transform? p with
    | none =>
      rw [localToWorld_none place]
      exact .lost up place
    | some t =>
      obtain ⟨m, answer, known⟩ :=
        exists_matrix?_localToWorld (Option.isSome_iff_exists.2 ⟨t, place⟩)
      rw [answer]
      exact .under (((settles_localToWorld w p).sameLinks.parent? e).trans up) known

/-- Under a roof the answer is the roof, and nothing changes. -/
theorem Roofed.askParent {above : Option (Mat4 K)} (h : w.Roofed e above) :
    w.askParent e = (above, w) := by
  cases h with
  | root top => rw [World.askParent, top]
  | lost up lost => rw [askParent_of_parent up, localToWorld_none lost]
  | under up known => rw [askParent_of_parent up, localToWorld_known known]

/-- The matrix of a place, where it has to be computed: it is laid out first, and then its parent is
asked. -/
theorem localToWorld_laid (acyclic : ∀ x, ¬ Relation.TransGen w.Above x x) {t : Transform K}
    (place : w.transform? e = some t) (unknown : t.localToWorld = none) :
    let above := (w.applyLayout e).askParent e
    let matrix := composed above.1 (((w.applyLayout e).transform? e).getD t).localMatrix
    w.localToWorld e = (some matrix, above.2.keepMatrix e matrix) := by
  have links := (settles_applyLayout w e).sameLinks
  have up : (w.applyLayout e).parent? e = t.parent := by
    rw [links.parent?, parent?, place, Option.bind_some]
  obtain ⟨steps, size⟩ : ∃ steps, w.entities.size = steps + 1 := by
    have inside := index_lt_of_transform? (Option.isSome_iff_exists.2 ⟨t, place⟩)
    exact ⟨w.entities.size - 1, by omega⟩
  have asked : askAbove w.entities.size (w.applyLayout e) t.parent
      = (w.applyLayout e).askParent e := by
    rw [World.askParent, up, size]
    cases t.parent with
    | none => rfl
    | some p =>
      have acyclic' : ∀ x, ¬ Relation.TransGen (w.applyLayout e).Above x x := by
        rwa [above_congr links.parent?]
      exact localToWorldFrom_size acyclic' (links.size.trans size) p
  rw [localToWorld, localToWorldFrom_unknown _ place unknown, asked]

/-- The matrix of a place without anchoring, where it has to be computed. -/
theorem localToWorld_unknown (acyclic : ∀ x, ¬ Relation.TransGen w.Above x x) {t : Transform K}
    (place : w.transform? e = some t) (free : w.anchoring? e = none)
    (unknown : t.localToWorld = none) :
    w.localToWorld e = (some (composed (w.askParent e).1 t.localMatrix),
      (w.askParent e).2.keepMatrix e (composed (w.askParent e).1 t.localMatrix)) := by
  have laid : w.applyLayout e = w := by
    rw [applyLayout, derivedPosition?, free]
    rfl
  rw [localToWorld_laid acyclic place unknown, laid, place]
  rfl

/-- Asking an entity leaves the answer of its parent. -/
theorem askParent_localToWorld (acyclic : ∀ x, ¬ Relation.TransGen w.Above x x)
    (free : w.anchoring? e = none) :
    ((w.localToWorld e).2.askParent e).1 = (w.askParent e).1 := by
  cases place : w.transform? e with
  | none => rw [localToWorld_none place]
  | some t =>
    cases known : t.localToWorld with
    | some m => rw [localToWorld_known (m := m) (by rw [matrix?, place]; exact known)]
    | none =>
      rw [localToWorld_unknown acyclic place free known]
      have same := above_congr (looked_askParent w e).settles.sameLinks.parent?
      have roofed := (roofed_askParent w e).keepMatrix (same ▸ acyclic)
        (composed (w.askParent e).1 t.localMatrix)
      dsimp only
      rw [roofed.askParent]

/-- The matrix into the world of an entity under a roof. -/
theorem Roofed.localToWorld {above : Option (Mat4 K)} (h : w.Roofed e above)
    (acyclic : ∀ x, ¬ Relation.TransGen w.Above x x) {t : Transform K}
    (place : w.transform? e = some t) (free : w.anchoring? e = none)
    (unknown : t.localToWorld = none) :
    (w.localToWorld e).1 = some (composed above t.localMatrix) := by
  rw [localToWorld_unknown acyclic place free unknown, h.askParent]

end Asking

end World

end SheepScene
