import SheepScene.Geometry.Quaternion
import SheepScene.Proofs.Geometry.Inverses

/-!
# Exact rotations

The algebra of rotations and scales over exact scalars. Products of quaternions are associative and
lengths multiply, so the conjugate of a quaternion of unit length undoes it
(`Quat.mul_inverse_mul`), and turning a vector multiplies its length by the square of that of the
quaternion (`Quat.dot_rotate`): a rotation of unit length keeps distances. Division by a scale whose
coordinates do not count as zero undoes multiplication (`Vec3.safeDiv_mul`).
-/

set_option autoImplicit false

namespace SheepScene

/-! ## Vectors -/

namespace Vec3

/-- Sums by coordinates. -/
theorem add_rat (a b : Vec3 ℚ) : a + b = ⟨a.x + b.x, a.y + b.y, a.z + b.z⟩ :=
  rfl

/-- Differences by coordinates. -/
theorem sub_rat (a b : Vec3 ℚ) : a - b = ⟨a.x - b.x, a.y - b.y, a.z - b.z⟩ :=
  rfl

/-- Products by coordinates. -/
theorem mul_rat (a b : Vec3 ℚ) : a * b = ⟨a.x * b.x, a.y * b.y, a.z * b.z⟩ :=
  rfl

/-- The inner product by coordinates. -/
theorem dot_rat (a b : Vec3 ℚ) : a.dot b = a.x * b.x + a.y * b.y + a.z * b.z :=
  rfl

/-- Adding a vector and taking it off again leaves the other one. -/
theorem add_sub_left (a b : Vec3 ℚ) : a + b - a = b := by
  simp only [add_rat, sub_rat, add_sub_cancel_left]

/-- Products by coordinates are associative. -/
protected theorem mul_assoc (a b c : Vec3 ℚ) : a * b * c = a * (b * c) := by
  simp only [mul_rat, mul_assoc]

/-- No coordinate of a vector counts as zero. -/
structure Large (v : Vec3 ℚ) : Prop where
  x : Scalar.epsilon ≤ |v.x|
  y : Scalar.epsilon ≤ |v.y|
  z : Scalar.epsilon ≤ |v.z|

/-- Division by a scale undoes multiplication. -/
theorem safeDiv_mul {a : Vec3 ℚ} (large : a.Large) (v : Vec3 ℚ) : v.safeDiv a * a = v := by
  have part : ∀ n d : ℚ, Scalar.epsilon ≤ |d| →
      (if Scalar.isTiny d then 0 else n / d) * d = n := by
    intro n d large
    rw [Scalar.isTiny_eq_false.2 large]
    exact div_mul_cancel₀ n (Scalar.ne_zero_of_epsilon_le large)
  calc v.safeDiv a * a = ⟨v.x, v.y, v.z⟩ :=
        congr (congr (congrArg mk (part v.x a.x large.x)) (part v.y a.y large.y))
          (part v.z a.z large.z)
    _ = v := rfl

end Vec3

/-! ## Quaternions -/

namespace Quat

/-- Products of quaternions by coordinates. -/
theorem mul_rat (a b : Quat ℚ) : a * b =
    ⟨a.w * b.x + a.x * b.w + a.y * b.z - a.z * b.y,
      a.w * b.y - a.x * b.z + a.y * b.w + a.z * b.x,
      a.w * b.z + a.x * b.y - a.y * b.x + a.z * b.w,
      a.w * b.w - a.x * b.x - a.y * b.y - a.z * b.z⟩ :=
  rfl

/-- The squared length by coordinates. -/
theorem lengthSquared_rat (q : Quat ℚ) :
    q.lengthSquared = q.x * q.x + q.y * q.y + q.z * q.z + q.w * q.w :=
  rfl

/-- The identity has length one. -/
theorem lengthSquared_identity : (identity : Quat ℚ).lengthSquared = 1 := by
  simp only [lengthSquared_rat, identity, Scalar.zero_rat, Scalar.one_rat, mul_zero, mul_one,
    add_zero, zero_add]

/-- Products of quaternions are associative. -/
protected theorem mul_assoc (a b c : Quat ℚ) : a * b * c = a * (b * c) := by
  simp only [mul_rat, Quat.mk.injEq]
  refine ⟨?_, ?_, ?_, ?_⟩ <;> ring

/-- Lengths multiply. -/
theorem lengthSquared_mul (a b : Quat ℚ) :
    (a * b).lengthSquared = a.lengthSquared * b.lengthSquared := by
  simp only [mul_rat, lengthSquared_rat]
  ring

/-- The conjugate undoes a quaternion but for its length. -/
theorem mul_inverse (a b : Quat ℚ) : a * (a.inverse * b) =
    ⟨a.lengthSquared * b.x, a.lengthSquared * b.y, a.lengthSquared * b.z,
      a.lengthSquared * b.w⟩ := by
  simp only [mul_rat, inverse, lengthSquared_rat, Quat.mk.injEq]
  refine ⟨?_, ?_, ?_, ?_⟩ <;> ring

/-- A quaternion of length one undoes its inverse. -/
theorem mul_inverse_mul {a : Quat ℚ} (unit : a.lengthSquared = 1) (b : Quat ℚ) :
    a * (a.inverse * b) = b := by
  simp only [mul_inverse, unit, one_mul]

/-- Rotating a vector by coordinates. -/
theorem rotate_rat (q : Quat ℚ) (v : Vec3 ℚ) : q.rotate v =
    let s := q.w * q.w - (q.x * q.x + q.y * q.y + q.z * q.z)
    let t := (v.x * q.x + v.y * q.y + v.z * q.z) * 2
    ⟨v.x * s + q.x * t + (q.y * v.z - v.y * q.z) * (q.w * 2),
      v.y * s + q.y * t + (q.z * v.x - v.z * q.x) * (q.w * 2),
      v.z * s + q.z * t + (q.x * v.y - v.x * q.y) * (q.w * 2)⟩ :=
  rfl

/-- Turning a vector multiplies its length by the square of that of the quaternion. -/
theorem dot_rotate (q : Quat ℚ) (v : Vec3 ℚ) :
    (q.rotate v).dot (q.rotate v) = q.lengthSquared ^ 2 * v.dot v := by
  simp only [rotate_rat, Vec3.dot_rat, lengthSquared_rat]
  ring

end Quat

end SheepScene
