import SheepScene.Proofs.Scene.WorldSetters

/-!
# Turning around a point

An entity that is turned around a point of the world is asked where it is, put where the rotation
takes it, and turned where it is then. Each of these steps forgets matrices and asks for them again.
Over exact coordinates, and with a rotation of unit length, the entity comes to be on the sphere
around the point on which it was, turned by the rotation and not stretched (`orbits_are_rigid`).
-/

set_option autoImplicit false

namespace SheepScene

namespace World

section Looking

variable {K B : Type} [Scalar K] {w w' : World K B} {e : EntityId}

/-- Looking changes no rotation. -/
theorem Looked.worldRotation? (seen : Looked w w') (e : EntityId) :
    w'.worldRotation? e = w.worldRotation? e := by
  have rotation := congrArg (Option.map Prod.fst) (seen.map_transform? e)
  rw [Option.map_map, Option.map_map] at rotation
  have product := congrArg (Option.map fun q =>
    (w.partsAbove (·.rotation) e).foldl (fun q above => above * q) q) rotation
  rw [Option.map_map, Option.map_map] at product
  rw [worldRotation?_eq, worldRotation?_eq, seen.partsAbove_rotation]
  exact product

/-- Turning in the world is setting the rotation in the world to the product. -/
theorem rotate_world {turned : Quat K} (found : w.worldRotation? e = some turned) (r : Quat K) :
    w.rotate e r .world = w.placeInWorld e (.rotation (r * turned)) := by
  rw [rotate, found]

/-- Turning around a point is putting the entity at the turned point and turning it there. -/
theorem rotateAround_eq {m : Mat4 K} (into : (w.localToWorld e).1 = some m) (c : Vec3 K)
    (r : Quat K) : w.rotateAround e c r =
      ((w.localToWorld e).2.placeInWorld e (.position (c + r.rotate (m.origin - c)))).rotate e r
        .world := by
  have asked : w.localToWorld e = (some m, (w.localToWorld e).2) := Prod.ext into rfl
  rw [rotateAround, worldPosition, asked]
  rfl

end Looking

variable {B : Type} {w : World ℚ B} {e : EntityId} {t : Transform ℚ}

/-- An entity that is put somewhere in the world and turned there is there, and is turned. -/
theorem Matched.placed_and_turned (h : w.Matched) (traceable : w.Traceable)
    (place : w.transform? e = some t) (free : w.anchoring? e = none)
    (regular : ∀ m, (w.askParent e).1 = some m → m.Affine ∧ Scalar.epsilon ≤ |m.determinant|)
    (units : w.Unstretched e) {turned : Quat ℚ} (found : w.worldRotation? e = some turned)
    (v : Vec3 ℚ) (r : Quat ℚ) :
    let w' := (w.placeInWorld e (.position v)).rotate e r .world
    (∃ t', w'.transform? e = some t' ∧ t'.scale = t.scale) ∧ (w'.worldPosition e).1 = some v ∧
      w'.worldRotation? e = some (r * turned) := by
  -- the position is set under a roof, and nothing changes that rotations depend on
  obtain ⟨w₁, seen, roofed, moved⟩ := h.exists_placeInWorld place v
  have traceable₁ := traceable.congr (.of_settles seen.settles)
  have free₁ := (seen.settles.sameLinks.onlyPlaces.anchoring? e).trans free
  obtain ⟨t₁, place₁, rotation, scale⟩ := seen.exists_transform? place
  rw [moved]
  generalize position : Placement.position (pointUnder (w.askParent e).1 v) = placement
  have links := sameLinks_place w₁ e placement
  have traceable₂ := traceable₁.congr (.of_sameLinks links)
  have place₂ := transform?_place_self place₁ placement
  have found₂ : (w₁.place e placement).worldRotation? e = some turned := by
    rw [worldRotation?_place traceable₁.acyclic place₁, ← position, ← found,
      ← seen.worldRotation? e, worldRotation?_eq, place₁]
    rfl
  have units₂ : (w₁.place e placement).Unstretched e := by
    rw [Unstretched, partsAbove_place traceable₁.acyclic fun _ => rfl, seen.partsAbove_rotation]
    exact units
  -- and then the rotation is set under the same roof
  obtain ⟨own, set, stretched⟩ :=
    exists_placeInWorld_rotation traceable₂.acyclic place₂ (r * turned)
  rw [rotate_world found₂, set]
  refine ⟨⟨_, transform?_place_self place₂ _, ?_⟩, ?_, ?_⟩
  · rw [← scale, ← position]
    rfl
  · refine (roofed.place traceable₁ placement).worldPosition_place traceable₂ place₂
      ((links.onlyPlaces.anchoring? e).trans free₁) regular ?_
    rw [← position]
    rfl
  · rw [worldRotation?_place traceable₂.acyclic place₂]
    exact congrArg some (stretched units₂)

end World

section Orbits

variable {B : Type} [Behavior ℚ B]

/-- Turning an entity around a point is rigid, at every instant of every scene: for an entity with a
place and no anchoring, where the rotations above it are of unit length and the matrix of the
parent, if there is one, has a determinant that does not count as zero, and for every rotation of
unit length. The entity is found afterwards where the rotation takes it, at the distance from the
point at which it was, its rotation in the world is the rotation after the old one, and its scale in
the parent's space is as it was. -/
theorem orbits_are_rigid {w : World ℚ B} (h : AtInstant w) {e : EntityId} {t : Transform ℚ}
    (place : w.transform? e = some t) (free : w.anchoring? e = none)
    (regular : w.RegularAbove e) (units : w.Unstretched e) (c : Vec3 ℚ) {r : Quat ℚ}
    (unit : r.lengthSquared = 1) :
    ∃ old new turned t', (w.worldPosition e).1 = some old ∧ w.worldRotation? e = some turned ∧
      ((w.rotateAround e c r).worldPosition e).1 = some new ∧ new = c + r.rotate (old - c) ∧
      (new - c).dot (new - c) = (old - c).dot (old - c) ∧
      (w.rotateAround e c r).worldRotation? e = some (r * turned) ∧
      (w.rotateAround e c r).transform? e = some t' ∧ t'.scale = t.scale := by
  have traceable := h.traceable
  -- asking the entity where it is leaves its rotation and what is above it
  obtain ⟨m, into, -⟩ := World.exists_matrix?_localToWorld (w := w) (e := e)
    (Option.isSome_iff_exists.2 ⟨t, place⟩)
  have seen := World.looked_localToWorld w e
  obtain ⟨t₁, place₁, -, scale⟩ := seen.exists_transform? place
  obtain ⟨turned, found⟩ : ∃ turned, w.worldRotation? e = some turned := by
    rw [World.worldRotation?_eq, place]
    exact ⟨_, rfl⟩
  have above := World.askParent_localToWorld traceable.acyclic free
  have units₁ : (w.localToWorld e).2.Unstretched e := by
    rw [World.Unstretched, seen.partsAbove_rotation]
    exact units
  obtain ⟨⟨t', place', scale'⟩, position, rotation⟩ :=
    (h.matched.localToWorld e).placed_and_turned (traceable.congr (.of_settles seen.settles)) place₁
      ((seen.settles.sameLinks.onlyPlaces.anchoring? e).trans free)
      (above ▸ h.matched.regular_askParent regular) units₁ ((seen.worldRotation? e).trans found)
      (c + r.rotate (m.origin - c)) r
  rw [← World.rotateAround_eq into] at place' position rotation
  refine ⟨m.origin, _, turned, t', ?_, found, position, rfl, ?_, rotation, place',
    scale'.trans scale⟩
  · exact congrArg (Option.map Mat4.origin) into
  · rw [Vec3.add_sub_left, Quat.dot_rotate, unit, one_pow, one_mul]

end Orbits

/-- The last of three in a row is turned around a point of the world. -/
theorem orbits_are_rigid_row : ∃ (w : World ℚ Empty) (old new : Vec3 ℚ), AtInstant w ∧
    w.ancestors ⟨2⟩ = [⟨1⟩, ⟨0⟩] ∧ (w.worldPosition ⟨2⟩).1 = some old ∧
    ((w.rotateAround ⟨2⟩ ⟨1, 1, 1⟩ ⟨0, 3 / 5, 0, 4 / 5⟩).worldPosition ⟨2⟩).1 = some new ∧
    (new - ⟨1, 1, 1⟩).dot (new - ⟨1, 1, 1⟩) = (old - ⟨1, 1, 1⟩).dot (old - ⟨1, 1, 1⟩) := by
  obtain ⟨w, t, h, place, free, above, regular, units, -⟩ := exists_row
  obtain ⟨old, new, turned, t', before, -, after, -, distance, -⟩ :=
    orbits_are_rigid h place free regular units ⟨1, 1, 1⟩ (r := ⟨0, 3 / 5, 0, 4 / 5⟩)
      (by decide +kernel)
  exact ⟨w, old, new, h, above, before, after, distance⟩

end SheepScene
