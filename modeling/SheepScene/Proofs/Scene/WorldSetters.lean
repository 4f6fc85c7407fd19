import SheepScene.Proofs.Geometry.Rotations
import SheepScene.Proofs.Scene.Roofs

/-!
# Setters in the world

An entity that is put somewhere in the world is found there afterwards, over exact coordinates: its
position is carried back through the inverse of what is above it, its rotation through the conjugate
of the rotations above, and its scale is divided by the scales above. Each of these undoes what the
getter puts on again, as long as it can be undone (`world_setters_are_right_inverses`).
-/

set_option autoImplicit false

namespace SheepScene

namespace World

section Parts

variable {K B α : Type} {w : World K B} {e : EntityId}

/-! ## Rotations and scales above an entity -/

/-- Those above an entity depend only on the links. -/
theorem ancestors_congr {w' : World K B} (links : SameLinks w w') (e : EntityId) :
    w'.ancestors e = w.ancestors e :=
  congrArg (List.drop 1) (lineage_congr links.size links.parent? e)

/-- A part of the places above an entity, that of the parent first. -/
def partsAbove (w : World K B) (part : Transform K → α) (e : EntityId) : List α :=
  (w.ancestors e).filterMap fun x => (w.transform? x).map part

/-- Above a root there are no parts. -/
theorem partsAbove_of_root (acyclic : ∀ x, ¬ Relation.TransGen w.Above x x)
    (part : Transform K → α) (top : w.parent? e = none) : w.partsAbove part e = [] := by
  rw [partsAbove, ancestors_eq acyclic, top]
  rfl

/-- The parts above an entity with a parent are those of the parent and of what is above it. -/
theorem partsAbove_of_parent (acyclic : ∀ x, ¬ Relation.TransGen w.Above x x)
    (part : Transform K → α) {p : EntityId} (up : w.parent? e = some p) :
    w.partsAbove part e = ((w.transform? p).map part).toList ++ w.partsAbove part p := by
  have above : w.ancestors e = p :: w.ancestors p := by
    rw [ancestors_eq acyclic, up, ← lineage_eq_cons]
    rfl
  rw [partsAbove, above, List.filterMap_cons]
  cases w.transform? p <;> rfl

/-- Above an entity whose parent has no place there is nothing. -/
theorem partsAbove_of_lost (acyclic : ∀ x, ¬ Relation.TransGen w.Above x x)
    (part : Transform K → α) {p : EntityId} (up : w.parent? e = some p)
    (lost : w.transform? p = none) : w.partsAbove part e = [] := by
  rw [partsAbove_of_parent acyclic part up, lost,
    partsAbove_of_root acyclic part (by rw [parent?, lost, Option.bind_none])]
  rfl

/-- What the places above an entity come to is what the parent and those above it come to. -/
theorem foldl_partsAbove (acyclic : ∀ x, ¬ Relation.TransGen w.Above x x)
    (part : Transform K → α) (op : α → α → α) [Std.Associative op] {p : EntityId}
    {u : Transform K} (up : w.parent? e = some p) (there : w.transform? p = some u) (a : α) :
    (w.partsAbove part e).foldl op a = op a ((w.partsAbove part p).foldl op (part u)) := by
  rw [partsAbove_of_parent acyclic part up, there]
  exact List.foldl_assoc

/-- Putting an entity somewhere changes nothing above it. -/
theorem partsAbove_place (acyclic : ∀ x, ¬ Relation.TransGen w.Above x x) {part : Transform K → α}
    (blind : ∀ t : Transform K, part t.invalidated = part t) (placement : Placement K) :
    (w.place e placement).partsAbove part e = w.partsAbove part e := by
  rw [partsAbove, partsAbove, ancestors_congr (sameLinks_place w e placement)]
  refine List.filterMap_congr fun x above => map_transform?_place blind ?_ placement
  rintro rfl
  exact acyclic x ((isAncestor_iff acyclic).1 (List.contains_iff_mem.2 above))

variable [Scalar K]

/-- A rotation in the world is that of the place under all those above. -/
theorem worldRotation?_eq (w : World K B) (e : EntityId) :
    w.worldRotation? e = (w.transform? e).map fun t =>
      (w.partsAbove (·.rotation) e).foldl (fun q above => above * q) t.rotation := by
  simp only [worldRotation?, partsAbove, ← List.map_filterMap, List.foldl_map]

/-- A scale in the world is that of the place by all those above. -/
theorem worldScale?_eq (w : World K B) (e : EntityId) :
    w.worldScale? e = (w.transform? e).map fun t =>
      (w.partsAbove (·.scale) e).foldl (· * ·) t.scale := by
  simp only [worldScale?, partsAbove, ← List.map_filterMap, List.foldl_map]

end Parts

section Setters

variable {K B : Type} [Scalar K] {w w' : World K B} {e : EntityId} {t : Transform K}

/-! ## Setters in the world by setters in the parent's space -/

/-- Placing a root in the world is placing it by its local parts. -/
theorem placeInWorld_of_root (place : w.transform? e = some t) (top : w.parent? e = none)
    (placement : Placement K) : w.placeInWorld e placement = w.place e placement := by
  rw [parent?, place, Option.bind_some] at top
  rw [placeInWorld, place]
  dsimp only
  rw [top]

/-- Placing another entity in the world is placing it by what this is in the space of the parent. -/
theorem placeInWorld_of_parent (place : w.transform? e = some t) {p : EntityId}
    (up : w.parent? e = some p) (placement : Placement K) : w.placeInWorld e placement =
      (w.inParentSpace p placement).2.place e (w.inParentSpace p placement).1 := by
  rw [parent?, place, Option.bind_some] at up
  rw [placeInWorld, place]
  dsimp only
  rw [up]

omit [Scalar K] in
/-- Places that were looked at have the same rotations and scales. -/
theorem Looked.map_transform? (seen : Looked w w') (x : EntityId) :
    (w'.transform? x).map (fun t => (t.rotation, t.scale))
      = (w.transform? x).map fun t => (t.rotation, t.scale) := by
  refine seen.settles.map_transform? (fun a b same => ?_) x
  simp only [Entity.settled, Prod.mk.injEq] at same
  have parts := congrArg (Option.map fun p => p.2.2.2.2) same.2.2.2
  simpa only [Option.map_map, Function.comp_def, Entity.fixedPlace] using parts

omit [Scalar K] in
/-- Looking changes neither rotation nor scale of a place. -/
theorem Looked.exists_transform? (seen : Looked w w') (place : w.transform? e = some t) :
    ∃ t', w'.transform? e = some t' ∧ t'.rotation = t.rotation ∧ t'.scale = t.scale := by
  have same := seen.map_transform? e
  rw [place] at same
  obtain ⟨t', place', parts⟩ := Option.map_eq_some_iff.1 same
  exact ⟨t', place', Prod.mk.inj parts⟩

omit [Scalar K] in
/-- Looking changes no rotations above an entity. -/
theorem Looked.partsAbove_rotation (seen : Looked w w') (e : EntityId) :
    w'.partsAbove (·.rotation) e = w.partsAbove (·.rotation) e := by
  rw [partsAbove, partsAbove, ancestors_congr seen.settles.sameLinks]
  refine List.filterMap_congr fun x _ => ?_
  simpa only [Option.map_map, Function.comp_def] using
    congrArg (Option.map Prod.fst) (seen.map_transform? x)

end Setters

section Exact

variable {B : Type} {w : World ℚ B} {e : EntityId} {t : Transform ℚ}

instance : Std.Associative fun q above : Quat ℚ => above * q :=
  ⟨fun a b c => (Quat.mul_assoc c b a).symm⟩

instance : Std.Associative fun s above : Vec3 ℚ => s * above :=
  ⟨Vec3.mul_assoc⟩

/-! ## Positions -/

/-- A point of the world in the space of a parent with the given matrix. -/
def pointUnder (above : Option (Mat4 ℚ)) (v : Vec3 ℚ) : Vec3 ℚ :=
  (above.map fun m => m.inverseOrIdentity.transformPoint v).getD v

/-- A position in the world is carried into the space of a parent by the inverse of its matrix. -/
theorem Matched.inParentSpace_position (h : w.Matched) (p : EntityId) (v : Vec3 ℚ) :
    w.inParentSpace p (.position v)
      = (.position (pointUnder (w.localToWorld p).1 v), (w.worldToLocal p).2) := by
  have through : pointUnder (w.localToWorld p).1 v =
      ((w.worldToLocal p).1.map fun m => m.transformPoint v).getD v := by
    rw [h.fst_worldToLocal, Option.map_map]
    rfl
  rw [through]
  rfl

/-- Once a parent was asked for the way into its space there is a roof. -/
theorem Matched.roofed_worldToLocal (h : w.Matched) {p : EntityId} (up : w.parent? e = some p) :
    (w.worldToLocal p).2.Roofed e (w.localToWorld p).1 := by
  cases answer : (w.localToWorld p).1 with
  | none =>
    have lost := transform?_of_localToWorld_none answer
    rw [worldToLocal_none lost]
    exact .lost up lost
  | some m =>
    have links := (settles_worldToLocal w p).sameLinks
    exact .under ((links.parent? e).trans up) (h.worldToLocal_of_localToWorld answer).2.1

/-- Setting a position in the world asks the parent and sets a position under the roof. -/
theorem Matched.exists_placeInWorld (h : w.Matched) (place : w.transform? e = some t)
    (v : Vec3 ℚ) : ∃ w₁, Looked w w₁ ∧ w₁.Roofed e (w.askParent e).1 ∧
      w.placeInWorld e (.position v)
        = w₁.place e (.position (pointUnder (w.askParent e).1 v)) := by
  cases up : w.parent? e with
  | none =>
    rw [placeInWorld_of_root place up, askParent, up]
    exact ⟨w, .refl w, .root up, rfl⟩
  | some p =>
    rw [placeInWorld_of_parent place up, askParent_of_parent up, h.inParentSpace_position]
    exact ⟨_, looked_worldToLocal w p, h.roofed_worldToLocal up, rfl⟩

/-- What is put under a roof is found in the world where it was to be. -/
theorem origin_composed {above : Option (Mat4 ℚ)}
    (regular : ∀ m, above = some m → m.Affine ∧ Scalar.epsilon ≤ |m.determinant|) (v : Vec3 ℚ)
    {t : Transform ℚ} (there : t.position = pointUnder above v) :
    (composed above t.localMatrix).origin = v := by
  have own : t.localMatrix.origin = t.position := rfl
  cases above with
  | none => exact there
  | some m =>
    obtain ⟨affine, large⟩ := regular m rfl
    calc (m * t.localMatrix).origin = m.transformPoint t.position :=
          Mat4.origin_mul m (Mat4.affine_ofParts ..)
      _ = m.transformPoint (m.inverse.transformPoint v) := by
          rw [there, pointUnder, Option.map_some, Option.getD_some,
            Mat4.inverseOrIdentity_of_le large]
      _ = v := affine.transformPoint_inverse (Scalar.ne_zero_of_epsilon_le large) v

/-- What is set under a roof is found in the world, where its position says. -/
theorem Roofed.worldPosition_place {above : Option (Mat4 ℚ)} (h : w.Roofed e above)
    (traceable : w.Traceable) (place : w.transform? e = some t) (free : w.anchoring? e = none)
    (regular : ∀ m, above = some m → m.Affine ∧ Scalar.epsilon ≤ |m.determinant|) {v : Vec3 ℚ}
    {placement : Placement ℚ} (there : (placed placement t).position = pointUnder above v) :
    ((w.place e placement).worldPosition e).1 = some v := by
  have links := sameLinks_place w e placement
  have found : ((w.place e placement).worldPosition e).1
      = ((w.place e placement).localToWorld e).1.map Mat4.origin := rfl
  rw [found, (h.place traceable placement).localToWorld
    (traceable.congr (.of_sameLinks links)).acyclic (transform?_place_self place placement)
    ((links.onlyPlaces.anchoring? e).trans free) rfl]
  exact congrArg some (origin_composed regular v there)

/-- The matrix of the parent, if there is one, has a determinant that does not count as zero. -/
def RegularAbove (w : World ℚ B) (e : EntityId) : Prop :=
  ∀ p m, w.parent? e = some p → (w.localToWorld p).1 = some m → Scalar.epsilon ≤ |m.determinant|

/-- Under regular ancestors the matrix of the parent is affine and far from singular. -/
theorem Matched.regular_askParent (h : w.Matched) (regular : w.RegularAbove e) (m : Mat4 ℚ)
    (above : (w.askParent e).1 = some m) : m.Affine ∧ Scalar.epsilon ≤ |m.determinant| := by
  cases up : w.parent? e with
  | none =>
    rw [askParent, up] at above
    cases above
  | some p =>
    rw [askParent_of_parent up] at above
    exact ⟨h.affine above, regular p m up above⟩

/-! ## Rotations and scales -/

/-- A rotation in the world is that of the place under the rotation of the parent. -/
theorem worldRotation?_of_parent (acyclic : ∀ x, ¬ Relation.TransGen w.Above x x)
    {p : EntityId} {above : Quat ℚ} (up : w.parent? e = some p)
    (there : w.worldRotation? p = some above) (q : Quat ℚ) :
    (w.partsAbove (·.rotation) e).foldl (fun q above => above * q) q = above * q := by
  rw [worldRotation?_eq] at there
  obtain ⟨u, hu, rfl⟩ := Option.map_eq_some_iff.1 there
  exact foldl_partsAbove acyclic _ (fun q above : Quat ℚ => above * q) up hu q

/-- Scales above an entity are those of its parent in the world. -/
theorem worldScale?_of_parent (acyclic : ∀ x, ¬ Relation.TransGen w.Above x x)
    {p : EntityId} {above : Vec3 ℚ} (up : w.parent? e = some p)
    (there : w.worldScale? p = some above) (s : Vec3 ℚ) :
    (w.partsAbove (·.scale) e).foldl (· * ·) s = s * above := by
  rw [worldScale?_eq] at there
  obtain ⟨u, hu, rfl⟩ := Option.map_eq_some_iff.1 there
  exact foldl_partsAbove acyclic _ (fun s above : Vec3 ℚ => s * above) up hu s

/-- Rotations of unit length come to one of unit length. -/
theorem lengthSquared_foldl (l : List (Quat ℚ)) (units : ∀ r ∈ l, r.lengthSquared = 1)
    (q : Quat ℚ) : (l.foldl (fun q above => above * q) q).lengthSquared = q.lengthSquared := by
  induction l generalizing q with
  | nil => rfl
  | cons r l ih =>
    rw [List.foldl_cons, ih fun r hr => units r (List.mem_cons_of_mem _ hr),
      Quat.lengthSquared_mul, units r (List.mem_cons_self ..), one_mul]

/-- All rotations above an entity are of unit length. -/
def Unstretched (w : World ℚ B) (e : EntityId) : Prop :=
  ∀ r ∈ w.partsAbove (·.rotation) e, r.lengthSquared = 1

/-- Setting a rotation in the world sets one that the rotations above turn into it. -/
theorem exists_placeInWorld_rotation (acyclic : ∀ x, ¬ Relation.TransGen w.Above x x)
    (place : w.transform? e = some t) (q : Quat ℚ) :
    ∃ own, w.placeInWorld e (.rotation q) = w.place e (.rotation own) ∧ (w.Unstretched e →
      (w.partsAbove (·.rotation) e).foldl (fun q above => above * q) own = q) := by
  cases up : w.parent? e with
  | none =>
    refine ⟨q, placeInWorld_of_root place up _, fun _ => ?_⟩
    rw [partsAbove_of_root acyclic _ up]
    rfl
  | some p =>
    refine ⟨_, placeInWorld_of_parent place up _, fun units => ?_⟩
    cases there : w.worldRotation? p with
    | none =>
      rw [worldRotation?_eq, Option.map_eq_none_iff] at there
      rw [partsAbove_of_lost acyclic _ up there]
      rfl
    | some above =>
      have turned := worldRotation?_of_parent acyclic up there
      have unit : above.lengthSquared = 1 := by
        have kept := lengthSquared_foldl _ units .identity
        rwa [turned, Quat.lengthSquared_mul, Quat.lengthSquared_identity, mul_one] at kept
      rw [turned]
      exact Quat.mul_inverse_mul unit q

/-- Setting a scale in the world sets one that the scales above stretch to it. -/
theorem exists_placeInWorld_scale (acyclic : ∀ x, ¬ Relation.TransGen w.Above x x)
    (place : w.transform? e = some t) (s : Vec3 ℚ) :
    ∃ own, w.placeInWorld e (.scale s) = w.place e (.scale own) ∧
      ((∀ p above, w.parent? e = some p → w.worldScale? p = some above → above.Large) →
        (w.partsAbove (·.scale) e).foldl (· * ·) own = s) := by
  cases up : w.parent? e with
  | none =>
    refine ⟨s, placeInWorld_of_root place up _, fun _ => ?_⟩
    rw [partsAbove_of_root acyclic _ up]
    rfl
  | some p =>
    refine ⟨_, placeInWorld_of_parent place up _, fun large => ?_⟩
    cases there : w.worldScale? p with
    | none =>
      rw [worldScale?_eq, Option.map_eq_none_iff] at there
      rw [partsAbove_of_lost acyclic _ up there]
      rfl
    | some above =>
      rw [worldScale?_of_parent acyclic up there]
      exact Vec3.safeDiv_mul (large p above rfl there) s

/-! ## What is found afterwards -/

/-- What is found of a place that was set in its parent's space. -/
theorem worldRotation?_place (acyclic : ∀ x, ¬ Relation.TransGen w.Above x x)
    (place : w.transform? e = some t) (placement : Placement ℚ) :
    (w.place e placement).worldRotation? e =
      some ((w.partsAbove (·.rotation) e).foldl (fun q above => above * q)
        (placed placement t).rotation) := by
  rw [worldRotation?_eq, transform?_place_self place, partsAbove_place acyclic fun _ => rfl]
  rfl

/-- Placing an entity scales it as its new place does. -/
theorem worldScale?_place (acyclic : ∀ x, ¬ Relation.TransGen w.Above x x)
    (place : w.transform? e = some t) (placement : Placement ℚ) :
    (w.place e placement).worldScale? e =
      some ((w.partsAbove (·.scale) e).foldl (· * ·) (placed placement t).scale) := by
  rw [worldScale?_eq, transform?_place_self place, partsAbove_place acyclic fun _ => rfl]
  rfl

end Exact

end World

section Setting

variable {B : Type} [Behavior ℚ B]

/-- Setters in the world are right inverses of the getters, at every instant of every scene, for an
entity with a place and no anchoring. A position that is set in the world is found there, if the
matrix of the parent has a determinant that does not count as zero; a rotation is, if no rotation
above scales; and a scale is, if no coordinate of the parent's scale in the world counts as zero. An
entity without parent, or whose parent has no place, meets each condition. Every setter leaves the
two other parts of the place alone. -/
theorem world_setters_are_right_inverses {w : World ℚ B} (h : AtInstant w) {e : EntityId}
    {t : Transform ℚ} (place : w.transform? e = some t) (free : w.anchoring? e = none) :
    (∀ v, (∃ t', (w.placeInWorld e (.position v)).transform? e = some t' ∧
        t'.rotation = t.rotation ∧ t'.scale = t.scale) ∧
      (w.RegularAbove e → ((w.placeInWorld e (.position v)).worldPosition e).1 = some v)) ∧
    (∀ q, (∃ t', (w.placeInWorld e (.rotation q)).transform? e = some t' ∧
        t'.position = t.position ∧ t'.scale = t.scale) ∧
      (w.Unstretched e → (w.placeInWorld e (.rotation q)).worldRotation? e = some q)) ∧
    ∀ s, (∃ t', (w.placeInWorld e (.scale s)).transform? e = some t' ∧
        t'.position = t.position ∧ t'.rotation = t.rotation) ∧
      ((∀ p above, w.parent? e = some p → w.worldScale? p = some above → above.Large) →
        (w.placeInWorld e (.scale s)).worldScale? e = some s) := by
  have traceable := h.traceable
  have matched := h.matched
  have acyclic := traceable.acyclic
  refine ⟨fun v => ?_, fun q => ?_, fun s => ?_⟩
  · obtain ⟨w₁, seen, roofed, moved⟩ := matched.exists_placeInWorld place v
    obtain ⟨t₁, place₁, rotation, scale⟩ := seen.exists_transform? place
    have there := World.transform?_place_self place₁ (.position (World.pointUnder
      (w.askParent e).1 v))
    rw [moved]
    refine ⟨⟨_, there, rotation, scale⟩, fun regular => ?_⟩
    exact roofed.worldPosition_place (traceable.congr (.of_settles seen.settles)) place₁
      ((seen.settles.sameLinks.onlyPlaces.anchoring? e).trans free)
      (matched.regular_askParent regular) rfl
  · obtain ⟨own, moved, turned⟩ := World.exists_placeInWorld_rotation acyclic place q
    have there := World.transform?_place_self place (.rotation own)
    rw [moved]
    refine ⟨⟨_, there, rfl, rfl⟩, fun units => ?_⟩
    rw [World.worldRotation?_place acyclic place]
    exact congrArg some (turned units)
  · obtain ⟨own, moved, stretched⟩ := World.exists_placeInWorld_scale acyclic place s
    have there := World.transform?_place_self place (.scale own)
    rw [moved]
    refine ⟨⟨_, there, rfl, rfl⟩, fun large => ?_⟩
    rw [World.worldScale?_place acyclic place]
    exact congrArg some (stretched large)

end Setting

/-! ## Three in a row -/

/-- Three actors one under the other, which are moved, turned and stretched. -/
def row : Program ℚ Empty Unit := do
  let first : ActorSpec ℚ := { ActorSpec.named "a" with
    position := ⟨1, 2, 3⟩, rotation := ⟨0, 0, 3 / 5, 4 / 5⟩, scale := ⟨4, -8, 2⟩ }
  let a ← Program.edit (.spawn first)
  let second : ActorSpec ℚ := { ActorSpec.named "b" with
    position := ⟨0, 1, 0⟩, rotation := ⟨12 / 13, 0, 0, 5 / 13⟩, scale := ⟨1, 3, 1 / 2⟩,
    parent := some a }
  let b ← Program.edit (.spawn second)
  let _ ← Program.edit (.spawn { ActorSpec.named "c" with parent := some b })
  return ()

/-- What is above the last one can be undone. -/
theorem exists_row : ∃ (w : World ℚ Empty) (t : Transform ℚ), AtInstant w ∧
    w.transform? ⟨2⟩ = some t ∧ w.anchoring? ⟨2⟩ = none ∧
    w.ancestors ⟨2⟩ = [⟨1⟩, ⟨0⟩] ∧ w.RegularAbove ⟨2⟩ ∧ w.Unstretched ⟨2⟩ ∧
    ∀ p above, w.parent? ⟨2⟩ = some p → w.worldScale? p = some above → above.Large := by
  have run : row.passes .bare fun _ w => (w.transform? ⟨2⟩).isSome && (w.anchoring? ⟨2⟩).isNone &&
      decide (w.parent? ⟨2⟩ = some ⟨1⟩) && decide (w.ancestors ⟨2⟩ = [⟨1⟩, ⟨0⟩]) &&
      (w.localToWorld ⟨1⟩).1.all (fun m => !Scalar.isTiny m.determinant) &&
      (w.partsAbove (·.rotation) ⟨2⟩).all (fun r => decide (r.lengthSquared = 1)) &&
      (w.worldScale? ⟨1⟩).all (fun s => !Scalar.isTiny s.x && !Scalar.isTiny s.y &&
        !Scalar.isTiny s.z) := by decide +kernel
  obtain ⟨_, w, hrun, checked⟩ := Program.exists_of_passes run
  simp only [Bool.and_eq_true, decide_eq_true_eq, Option.all_eq_true, List.all_eq_true,
    Bool.not_eq_true', Scalar.isTiny_eq_false] at checked
  obtain ⟨⟨⟨⟨⟨⟨place, free⟩, up⟩, above⟩, regular⟩, units⟩, large⟩ := checked
  obtain ⟨t, place⟩ := Option.isSome_iff_exists.1 place
  refine ⟨w, t, (Reachable.step (.empty rfl rfl rfl rfl)
    (.program (Scope.fit_everything _) hrun)).moment.instant, place,
    Option.isNone_iff_eq_none.1 free, above, fun p m hp => ?_, units, fun p s hp there => ?_⟩
  · cases up.symm.trans hp
    exact regular m
  · cases up.symm.trans hp
    obtain ⟨⟨x, y⟩, z⟩ := large s there
    exact ⟨x, y, z⟩

/-- The last one is put somewhere in the world, turned and stretched, and so it is found. -/
theorem world_setters_are_right_inverses_row : ∃ w : World ℚ Empty, AtInstant w ∧
    w.ancestors ⟨2⟩ = [⟨1⟩, ⟨0⟩] ∧
    ((w.placeInWorld ⟨2⟩ (.position ⟨7, 8, 9⟩)).worldPosition ⟨2⟩).1 = some ⟨7, 8, 9⟩ ∧
    (w.placeInWorld ⟨2⟩ (.rotation ⟨0, 1, 0, 0⟩)).worldRotation? ⟨2⟩ = some ⟨0, 1, 0, 0⟩ ∧
    (w.placeInWorld ⟨2⟩ (.scale ⟨1, 2, 3⟩)).worldScale? ⟨2⟩ = some ⟨1, 2, 3⟩ := by
  obtain ⟨w, t, h, place, free, above, regular, units, large⟩ := exists_row
  obtain ⟨positions, rotations, scales⟩ := world_setters_are_right_inverses h place free
  exact ⟨w, h, above, (positions _).2 regular, (rotations _).2 units, (scales _).2 large⟩

end SheepScene
