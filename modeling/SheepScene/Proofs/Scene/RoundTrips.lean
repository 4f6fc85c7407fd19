import SheepScene.Proofs.Scene.Matrices

/-!
# There and back

Points of an entity's space are carried into the world by its matrix and out of it by the inverse.
The inverse is not taken where the determinant counts as zero; the identity stands in for it, also
if the determinant is not zero and the scales are merely small (`small_scales_are_not_inverted`).
Everywhere else points come back to where they were, whichever way they go first, at every instant
of every scene (`points_go_there_and_back`).
-/

set_option autoImplicit false

namespace SheepScene

namespace World

variable {B : Type} {w : World ℚ B} {e : EntityId} {m : Mat4 ℚ}

/-- A point is taken into the world by the world matrix. -/
theorem localToWorldPoint_eq (into : (w.localToWorld e).1 = some m) (p : Vec3 ℚ) :
    w.localToWorldPoint e p = (some (m.transformPoint p), (w.localToWorld e).2) := by
  have asked : w.localToWorld e = (some m, (w.localToWorld e).2) := Prod.ext into rfl
  rw [localToWorldPoint, asked]
  rfl

/-- A point is taken out of the world by the inverse. -/
theorem Matched.worldToLocalPoint_eq (h : w.Matched) (into : (w.localToWorld e).1 = some m)
    (p : Vec3 ℚ) : w.worldToLocalPoint e p
      = (some (m.inverseOrIdentity.transformPoint p), (w.worldToLocal e).2) := by
  have asked : w.worldToLocal e = (some m.inverseOrIdentity, (w.worldToLocal e).2) :=
    Prod.ext (h.worldToLocal_of_localToWorld into).1 rfl
  rw [worldToLocalPoint, asked]
  rfl

end World

section RoundTrips

variable {B : Type} [Behavior ℚ B]

/-- A point of an entity's space that is carried into the world and out of it again is where it was,
and so is a point of the world that is carried the other way, at every instant of every scene:
wherever the matrix into the world has a determinant that does not count as zero, whatever the chain
of parents is, and whichever matrices were known. Where the determinant counts as zero, points of
the world are taken for points of the entity's space. -/
theorem points_go_there_and_back {w : World ℚ B} (h : AtInstant w) {e : EntityId} {m : Mat4 ℚ}
    (into : (w.localToWorld e).1 = some m) (p : Vec3 ℚ) :
    (Scalar.epsilon ≤ |m.determinant| →
      (∃ q v, w.localToWorldPoint e p = (some q, v) ∧ (v.worldToLocalPoint e q).1 = some p) ∧
        ∃ q v, w.worldToLocalPoint e p = (some q, v) ∧ (v.localToWorldPoint e q).1 = some p) ∧
      (|m.determinant| < Scalar.epsilon → (w.worldToLocalPoint e p).1 = some p) := by
  have matched := h.matched
  have affine := matched.affine into
  refine ⟨fun large => ?_, fun small => ?_⟩
  · have regular := Scalar.ne_zero_of_epsilon_le large
    refine ⟨⟨_, _, World.localToWorldPoint_eq into p, ?_⟩,
      ⟨_, _, matched.worldToLocalPoint_eq into p, ?_⟩⟩
    · have known := World.localToWorld_known (World.matrix?_localToWorld into)
      rw [(matched.localToWorld e).worldToLocalPoint_eq (congrArg Prod.fst known),
        Mat4.inverseOrIdentity_of_le large, affine.inverse_transformPoint regular]
    · have known := World.localToWorld_known (matched.worldToLocal_of_localToWorld into).2.1
      rw [World.localToWorldPoint_eq (congrArg Prod.fst known), Mat4.inverseOrIdentity_of_le large,
        affine.transformPoint_inverse regular]
  · rw [matched.worldToLocalPoint_eq into, Mat4.inverseOrIdentity_of_lt small,
      Mat4.identity_transformPoint]

end RoundTrips

/-! ## Small actors -/

/-- An actor that is turned and stretched, and a small one under it. -/
def nested : Program ℚ Empty Unit := do
  let large : ActorSpec ℚ := { ActorSpec.named "a" with
    position := ⟨1, 2, 3⟩, rotation := ⟨0, 0, 3 / 5, 4 / 5⟩, scale := ⟨4, -8, 2⟩ }
  let a ← Program.edit (.spawn large)
  let small : ActorSpec ℚ := { ActorSpec.named "b" with
    position := ⟨0, 1, 0⟩, scale := ⟨1 / 64, 1 / 32, 1 / 16⟩, parent := some a }
  let _ ← Program.edit (.spawn small)
  return ()

/-- Points return from the space of the small one and to it. -/
theorem points_go_there_and_back_nested : ∃ (w : World ℚ Empty) (m : Mat4 ℚ), AtInstant w ∧
    (w.localToWorld ⟨1⟩).1 = some m ∧ Scalar.epsilon ≤ |m.determinant| ∧
    (∃ q v, w.localToWorldPoint ⟨1⟩ ⟨1, 2, 3⟩ = (some q, v) ∧
      (v.worldToLocalPoint ⟨1⟩ q).1 = some ⟨1, 2, 3⟩) ∧
    ∃ q v, w.worldToLocalPoint ⟨1⟩ ⟨1, 2, 3⟩ = (some q, v) ∧
      (v.localToWorldPoint ⟨1⟩ q).1 = some ⟨1, 2, 3⟩ := by
  have run : nested.passes .bare fun _ w =>
      (w.localToWorld ⟨1⟩).1.any fun m => !Scalar.isTiny m.determinant := by decide +kernel
  obtain ⟨_, w, hrun, checked⟩ := Program.exists_of_passes run
  obtain ⟨m, into, large⟩ := (Option.any_eq_true _ _).1 checked
  have h : AtInstant w := (Reachable.step (.empty rfl rfl rfl rfl)
    (.program (Scope.fit_everything _) hrun)).moment.instant
  rw [Bool.not_eq_true', Scalar.isTiny_eq_false] at large
  obtain ⟨there, back⟩ := (points_go_there_and_back h into ⟨1, 2, 3⟩).1 large
  exact ⟨w, m, h, into, large, there, back⟩

/-- An actor whose scales are all the same and small. -/
def tiny : Program ℚ Empty Unit := do
  let small : ActorSpec ℚ := { ActorSpec.named "a" with scale := ⟨1 / 128, 1 / 128, 1 / 128⟩ }
  let _ ← Program.edit (.spawn small)
  return ()

/-- The determinant is not zero, but it counts as zero, and a point of its space that is carried
into the world does not come back. -/
theorem small_scales_are_not_inverted : ∃ (w : World ℚ Empty) (m : Mat4 ℚ), AtInstant w ∧
    (w.localToWorld ⟨0⟩).1 = some m ∧ m.determinant ≠ 0 ∧
    ∃ v, w.localToWorldPoint ⟨0⟩ ⟨1, 2, 3⟩ = (some ⟨1 / 128, 1 / 64, 3 / 128⟩, v) ∧
      (v.worldToLocalPoint ⟨0⟩ ⟨1 / 128, 1 / 64, 3 / 128⟩).1 ≠ some ⟨1, 2, 3⟩ := by
  have run : tiny.passes .bare fun _ w =>
      (w.localToWorld ⟨0⟩).1.any (fun m => decide (m.determinant ≠ 0)) &&
      decide ((w.localToWorldPoint ⟨0⟩ ⟨1, 2, 3⟩).1 = some ⟨1 / 128, 1 / 64, 3 / 128⟩) &&
      decide (((w.localToWorldPoint ⟨0⟩ ⟨1, 2, 3⟩).2.worldToLocalPoint ⟨0⟩
        ⟨1 / 128, 1 / 64, 3 / 128⟩).1 ≠ some ⟨1, 2, 3⟩) := by decide +kernel
  obtain ⟨_, w, hrun, checked⟩ := Program.exists_of_passes run
  simp only [Bool.and_eq_true, decide_eq_true_eq] at checked
  obtain ⟨⟨regular, there⟩, back⟩ := checked
  obtain ⟨m, into, regular⟩ := (Option.any_eq_true _ _).1 regular
  have h : AtInstant w := (Reachable.step (.empty rfl rfl rfl rfl)
    (.program (Scope.fit_everything _) hrun)).moment.instant
  exact ⟨w, m, h, into, of_decide_eq_true regular, _, Prod.ext there rfl, back⟩

end SheepScene
