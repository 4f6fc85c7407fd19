import SheepScene.Geometry.Matrix
import SheepScene.Proofs.Geometry.Rationals

/-!
# Exact inverses

Over exact scalars the inverse by cofactors is the inverse on both sides wherever the determinant is
not zero (`Mat4.apply_inverse`, `Mat4.inverse_apply`). The matrices of a scene are affine: they are
composed of matrices of a scale, a rotation and a translation (`Mat4.Affine.mul`), whose last row is
that of the identity. Therefore points, too, are carried there and back
(`Mat4.Affine.inverse_transformPoint`, `Mat4.Affine.transformPoint_inverse`).
-/

set_option autoImplicit false

namespace SheepScene

/-! ## What counts as zero -/

namespace Scalar

/-- A rational is tiny when it is nearer to zero than the tolerance. -/
theorem isTiny_rat {x : ℚ} : isTiny x = true ↔ |x| < epsilon :=
  lt_rat

/-- The tolerance is a millionth. -/
theorem epsilon_rat : (epsilon : ℚ) = 1 / 1000000 :=
  rfl

/-- What does not count as zero is not zero. -/
theorem ne_zero_of_epsilon_le {x : ℚ} (large : epsilon ≤ |x|) : x ≠ 0 := by
  rw [epsilon_rat] at large
  exact abs_pos.1 (lt_of_lt_of_le (by norm_num) large)

/-- A rational is not tiny when it is at least as far from zero as the tolerance. -/
theorem isTiny_eq_false {x : ℚ} : isTiny x = false ↔ epsilon ≤ |x| := by
  rw [← Bool.not_eq_true, isTiny_rat, not_lt]

end Scalar

/-! ## Cofactors -/

namespace Vec3

/-- The determinant of three columns of height three. -/
def triple (a b c : Vec3 ℚ) : ℚ :=
  a.dot (b.cross c)

/-- The triple product by coordinates. -/
theorem triple_rat (a b c : Vec3 ℚ) : a.triple b c =
    a.x * (b.y * c.z - c.y * b.z) + a.y * (b.z * c.x - c.z * b.x)
      + a.z * (b.x * c.y - c.x * b.y) :=
  rfl

end Vec3

namespace Vec4

/-- Sums by coordinates. -/
theorem add_rat (a b : Vec4 ℚ) : a + b = ⟨a.x + b.x, a.y + b.y, a.z + b.z, a.w + b.w⟩ :=
  rfl

/-- Differences by coordinates. -/
theorem sub_rat (a b : Vec4 ℚ) : a - b = ⟨a.x - b.x, a.y - b.y, a.z - b.z, a.w - b.w⟩ :=
  rfl

/-- Products by coordinates. -/
theorem mul_rat (a b : Vec4 ℚ) : a * b = ⟨a.x * b.x, a.y * b.y, a.z * b.z, a.w * b.w⟩ :=
  rfl

/-- Stretching by coordinates. -/
theorem stretch_rat (v : Vec4 ℚ) (r : ℚ) :
    v.stretch r = ⟨v.x * r, v.y * r, v.z * r, v.w * r⟩ :=
  rfl

/-- Stretching by a number and by its reciprocal changes nothing. -/
theorem stretch_stretch_one_div {d : ℚ} (regular : d ≠ 0) (v : Vec4 ℚ) :
    (v.stretch d).stretch (1 / d) = v := by
  obtain ⟨x, y, z, w⟩ := v
  simp only [stretch_rat, mul_assoc, mul_one_div_cancel regular, mul_one]

end Vec4

namespace Mat4

/-- Applying a matrix by coordinates. -/
theorem apply_rat (m : Mat4 ℚ) (v : Vec4 ℚ) : m.apply v =
    ⟨m.c0.x * v.x + m.c1.x * v.y + m.c2.x * v.z + m.c3.x * v.w,
      m.c0.y * v.x + m.c1.y * v.y + m.c2.y * v.z + m.c3.y * v.w,
      m.c0.z * v.x + m.c1.z * v.y + m.c2.z * v.z + m.c3.z * v.w,
      m.c0.w * v.x + m.c1.w * v.y + m.c2.w * v.z + m.c3.w * v.w⟩ :=
  rfl

/-- The cofactors of a row, by what is left of the columns without it. -/
def cofactors (m : Mat4 ℚ) (rest : Vec4 ℚ → Vec3 ℚ) : Vec4 ℚ :=
  ⟨(rest m.c1).triple (rest m.c2) (rest m.c3), -(rest m.c0).triple (rest m.c2) (rest m.c3),
    (rest m.c0).triple (rest m.c1) (rest m.c3), -(rest m.c0).triple (rest m.c1) (rest m.c2)⟩

/-- The inverse but for the determinant. -/
def adjugate (m : Mat4 ℚ) : Mat4 ℚ :=
  ⟨m.cofactors fun v => ⟨v.y, v.z, v.w⟩, (m.cofactors fun v => ⟨v.x, v.z, v.w⟩).stretch (-1),
    m.cofactors fun v => ⟨v.x, v.y, v.w⟩, (m.cofactors fun v => ⟨v.x, v.y, v.z⟩).stretch (-1)⟩

/-- The determinant, by the first column. -/
theorem determinant_rat (m : Mat4 ℚ) : m.determinant =
    m.c0.x * m.adjugate.c0.x + m.c0.y * m.adjugate.c1.x + m.c0.z * m.adjugate.c2.x
      + m.c0.w * m.adjugate.c3.x := by
  simp only [adjugate, cofactors, Vec4.stretch_rat, Vec3.triple_rat, determinant]
  ring

/-- A matrix after its adjugate stretches by the determinant. -/
theorem apply_adjugate (m : Mat4 ℚ) (v : Vec4 ℚ) :
    m.apply (m.adjugate.apply v) = v.stretch m.determinant := by
  simp only [determinant_rat, adjugate, cofactors, apply_rat, Vec4.stretch_rat, Vec3.triple_rat,
    Vec4.mk.injEq]
  refine ⟨?_, ?_, ?_, ?_⟩ <;> ring

/-- The adjugate after its matrix stretches by the determinant as well. -/
theorem adjugate_apply (m : Mat4 ℚ) (v : Vec4 ℚ) :
    m.adjugate.apply (m.apply v) = v.stretch m.determinant := by
  simp only [determinant_rat, adjugate, cofactors, apply_rat, Vec4.stretch_rat, Vec3.triple_rat,
    Vec4.mk.injEq]
  refine ⟨?_, ?_, ?_, ?_⟩ <;> ring

/-! ## The inverse -/

/-- A matrix with its columns stretched. -/
def stretch (m : Mat4 ℚ) (r : ℚ) : Mat4 ℚ :=
  ⟨m.c0.stretch r, m.c1.stretch r, m.c2.stretch r, m.c3.stretch r⟩

/-- The inverse is what the cofactors say, divided by the determinant. -/
theorem inverse_rat (m : Mat4 ℚ) : m.inverse = m.adjugate.stretch (1 / m.determinant) := by
  have divided : ∀ a b c d : Vec4 ℚ, a = m.adjugate.c0 → b = m.adjugate.c1 →
      c = m.adjugate.c2 → d = m.adjugate.c3 →
      stretch ⟨a, b, c, d⟩ (1 / (m.c0.x * a.x + m.c0.y * b.x + m.c0.z * c.x + m.c0.w * d.x))
        = m.adjugate.stretch (1 / m.determinant) := by
    rintro _ _ _ _ rfl rfl rfl rfl
    rw [determinant_rat]
  refine divided _ _ _ _ ?_ ?_ ?_ ?_
  all_goals
    simp only [adjugate, cofactors, Vec4.stretch_rat, Vec3.triple_rat, Vec4.add_rat, Vec4.sub_rat,
      Vec4.mul_rat, Scalar.one_rat, Vec4.mk.injEq]
    refine ⟨?_, ?_, ?_, ?_⟩ <;> ring

/-- A stretched matrix stretches what it gives. -/
theorem stretch_apply (m : Mat4 ℚ) (r : ℚ) (v : Vec4 ℚ) :
    (m.stretch r).apply v = (m.apply v).stretch r := by
  simp only [apply_rat, stretch, Vec4.stretch_rat, Vec4.mk.injEq]
  refine ⟨?_, ?_, ?_, ?_⟩ <;> ring

/-- A matrix stretches what it gives when it is applied to something stretched. -/
theorem apply_stretch (m : Mat4 ℚ) (v : Vec4 ℚ) (r : ℚ) :
    m.apply (v.stretch r) = (m.apply v).stretch r := by
  simp only [apply_rat, Vec4.stretch_rat, Vec4.mk.injEq]
  refine ⟨?_, ?_, ?_, ?_⟩ <;> ring

section Regular

variable {m : Mat4 ℚ} (regular : m.determinant ≠ 0) (v : Vec4 ℚ)
include regular

/-- What the inverse does is undone by the matrix. -/
theorem apply_inverse : m.apply (m.inverse.apply v) = v := by
  rw [inverse_rat, stretch_apply, apply_stretch, apply_adjugate,
    Vec4.stretch_stretch_one_div regular]

/-- What the matrix does is undone by the inverse. -/
theorem inverse_apply : m.inverse.apply (m.apply v) = v := by
  rw [inverse_rat, stretch_apply, adjugate_apply, Vec4.stretch_stretch_one_div regular]

end Regular

/-! ## Affine matrices -/

/-- A matrix whose last row is that of the identity. -/
structure Affine (m : Mat4 ℚ) : Prop where
  c0 : m.c0.w = 0
  c1 : m.c1.w = 0
  c2 : m.c2.w = 0
  c3 : m.c3.w = 1

/-- A matrix made of a scale, a rotation and a translation is affine. -/
theorem affine_ofParts (scale : Vec3 ℚ) (rotation : Quat ℚ) (translation : Vec3 ℚ) :
    (ofParts scale rotation translation).Affine :=
  ⟨zero_mul scale.x, zero_mul scale.y, zero_mul scale.z, rfl⟩

/-- What an affine matrix does to the last coordinate: nothing. -/
theorem Affine.apply_w {m : Mat4 ℚ} (h : m.Affine) (v : Vec4 ℚ) : (m.apply v).w = v.w := by
  simp only [apply_rat, h.c0, h.c1, h.c2, h.c3]
  ring

/-- The product of affine matrices is affine. -/
theorem Affine.mul {a b : Mat4 ℚ} (ha : a.Affine) (hb : b.Affine) : (a * b).Affine :=
  ⟨(ha.apply_w b.c0).trans hb.c0, (ha.apply_w b.c1).trans hb.c1, (ha.apply_w b.c2).trans hb.c2,
    (ha.apply_w b.c3).trans hb.c3⟩

/-! ## Points -/

/-- A point as a column, with the last coordinate that lets it be moved. -/
def ofPoint (p : Vec3 ℚ) : Vec4 ℚ :=
  ⟨p.x, p.y, p.z, 1⟩

/-- To transform a point is to apply the matrix to its homogeneous coordinates. -/
theorem transformPoint_eq (m : Mat4 ℚ) (p : Vec3 ℚ) :
    m.transformPoint p = (m.apply (ofPoint p)).spatial := by
  simp only [transformPoint, apply_rat, ofPoint, Vec4.stretch_rat, Vec4.add_rat, Vec4.spatial,
    Vec3.mk.injEq]
  refine ⟨?_, ?_, ?_⟩ <;> ring

/-- A column with the last coordinate of a point is one. -/
theorem ofPoint_spatial {v : Vec4 ℚ} (last : v.w = 1) : ofPoint v.spatial = v := by
  obtain ⟨x, y, z, w⟩ := v
  cases last
  rfl

/-- A point in the space of a product is carried by one matrix after the other. -/
theorem origin_mul (a : Mat4 ℚ) {b : Mat4 ℚ} (hb : b.Affine) :
    (a * b).origin = a.transformPoint b.origin := by
  have moved : ofPoint b.origin = b.c3 := ofPoint_spatial hb.c3
  rw [transformPoint_eq, moved]
  rfl

namespace Affine

variable {m : Mat4 ℚ} (h : m.Affine) (regular : m.determinant ≠ 0) (p : Vec3 ℚ)
include h regular

/-- A point that the matrix takes somewhere is brought back by the inverse. -/
theorem inverse_transformPoint : m.inverse.transformPoint (m.transformPoint p) = p := by
  have there : ofPoint (m.transformPoint p) = m.apply (ofPoint p) := by
    rw [transformPoint_eq, ofPoint_spatial (h.apply_w _)]
  rw [transformPoint_eq, there, inverse_apply regular]
  rfl

/-- A point that the inverse takes somewhere is brought back by the matrix. -/
theorem transformPoint_inverse : m.transformPoint (m.inverse.transformPoint p) = p := by
  have back : (m.inverse.apply (ofPoint p)).w = 1 := by
    rw [← h.apply_w, apply_inverse regular]
    rfl
  rw [transformPoint_eq, transformPoint_eq, ofPoint_spatial back, apply_inverse regular]
  rfl

end Affine

/-! ## The guarded inverse -/

/-- Where the determinant is not tiny the inverse is taken. -/
theorem inverseOrIdentity_of_le {m : Mat4 ℚ} (large : Scalar.epsilon ≤ |m.determinant|) :
    m.inverseOrIdentity = m.inverse := by
  rw [inverseOrIdentity, Scalar.isTiny_eq_false.2 large]
  rfl

/-- Where the determinant is tiny the identity is taken. -/
theorem inverseOrIdentity_of_lt {m : Mat4 ℚ} (small : |m.determinant| < Scalar.epsilon) :
    m.inverseOrIdentity = identity := by
  rw [inverseOrIdentity, Scalar.isTiny_rat.2 small]
  rfl

/-- The identity leaves points where they are. -/
theorem identity_transformPoint (p : Vec3 ℚ) : (identity : Mat4 ℚ).transformPoint p = p := by
  simp only [transformPoint_eq, apply_rat, identity, ofPoint, Vec4.spatial, Scalar.zero_rat,
    Scalar.one_rat]
  ring_nf

end Mat4

end SheepScene
