import SheepScene.Geometry.Quaternion

/-!
# Matrices

Four by four matrices by columns, as they carry points of a local space into the space around it:
composition, the cofactor inverse, and the matrix of a scale, a rotation and a translation.
-/

set_option autoImplicit false

namespace SheepScene

/-- Four coordinates, as a column of a matrix. -/
structure Vec4 (K : Type) where
  x : K
  y : K
  z : K
  w : K
  deriving DecidableEq, Repr

/-- A matrix by columns. -/
structure Mat4 (K : Type) where
  c0 : Vec4 K
  c1 : Vec4 K
  c2 : Vec4 K
  c3 : Vec4 K
  deriving DecidableEq, Repr

variable {K : Type} [Scalar K]

namespace Vec4

/-- An operation on each pair of coordinates. -/
def zipWith (f : K → K → K) (a b : Vec4 K) : Vec4 K :=
  ⟨f a.x b.x, f a.y b.y, f a.z b.z, f a.w b.w⟩

instance : Add (Vec4 K) := ⟨zipWith (· + ·)⟩
instance : Sub (Vec4 K) := ⟨zipWith (· - ·)⟩
instance : Mul (Vec4 K) := ⟨zipWith (· * ·)⟩

/-- A column stretched by a number. -/
def stretch (a : Vec4 K) (s : K) : Vec4 K :=
  ⟨a.x * s, a.y * s, a.z * s, a.w * s⟩

/-- The first three coordinates. -/
def spatial (a : Vec4 K) : Vec3 K :=
  ⟨a.x, a.y, a.z⟩

end Vec4

namespace Mat4

/-- The matrix that leaves every point where it is. -/
def identity : Mat4 K :=
  ⟨⟨1, 0, 0, 0⟩, ⟨0, 1, 0, 0⟩, ⟨0, 0, 1, 0⟩, ⟨0, 0, 0, 1⟩⟩

/-- A matrix applied to a column. -/
def apply (m : Mat4 K) (v : Vec4 K) : Vec4 K :=
  m.c0.stretch v.x + m.c1.stretch v.y + m.c2.stretch v.z + m.c3.stretch v.w

/-- The matrix `b` followed by the matrix `a`. -/
def mul (a b : Mat4 K) : Mat4 K :=
  ⟨a.apply b.c0, a.apply b.c1, a.apply b.c2, a.apply b.c3⟩

instance : Mul (Mat4 K) := ⟨mul⟩

/-- The image of a point. -/
def transformPoint (m : Mat4 K) (p : Vec3 K) : Vec3 K :=
  (m.c3 + (m.c2.stretch p.z + (m.c1.stretch p.y + m.c0.stretch p.x))).spatial

/-- The image of the origin. -/
def origin (m : Mat4 K) : Vec3 K :=
  m.c3.spatial

/-- The determinant, by the minors of the last two columns. -/
def determinant (m : Mat4 K) : K :=
  let a2323 := m.c2.z * m.c3.w - m.c2.w * m.c3.z
  let a1323 := m.c2.y * m.c3.w - m.c2.w * m.c3.y
  let a1223 := m.c2.y * m.c3.z - m.c2.z * m.c3.y
  let a0323 := m.c2.x * m.c3.w - m.c2.w * m.c3.x
  let a0223 := m.c2.x * m.c3.z - m.c2.z * m.c3.x
  let a0123 := m.c2.x * m.c3.y - m.c2.y * m.c3.x
  m.c0.x * (m.c1.y * a2323 - m.c1.z * a1323 + m.c1.w * a1223)
    - m.c0.y * (m.c1.x * a2323 - m.c1.z * a0323 + m.c1.w * a0223)
    + m.c0.z * (m.c1.x * a1323 - m.c1.y * a0323 + m.c1.w * a0123)
    - m.c0.w * (m.c1.x * a1223 - m.c1.y * a0223 + m.c1.z * a0123)

/-- The inverse by cofactors; it has a meaning only where the determinant is not zero. -/
def inverse (m : Mat4 K) : Mat4 K :=
  let minor := fun (a b c d : K) => a * d - b * c
  let c00 := minor m.c2.z m.c3.z m.c2.w m.c3.w
  let c02 := minor m.c1.z m.c3.z m.c1.w m.c3.w
  let c03 := minor m.c1.z m.c2.z m.c1.w m.c2.w
  let c04 := minor m.c2.y m.c3.y m.c2.w m.c3.w
  let c06 := minor m.c1.y m.c3.y m.c1.w m.c3.w
  let c07 := minor m.c1.y m.c2.y m.c1.w m.c2.w
  let c08 := minor m.c2.y m.c3.y m.c2.z m.c3.z
  let c10 := minor m.c1.y m.c3.y m.c1.z m.c3.z
  let c11 := minor m.c1.y m.c2.y m.c1.z m.c2.z
  let c12 := minor m.c2.x m.c3.x m.c2.w m.c3.w
  let c14 := minor m.c1.x m.c3.x m.c1.w m.c3.w
  let c15 := minor m.c1.x m.c2.x m.c1.w m.c2.w
  let c16 := minor m.c2.x m.c3.x m.c2.z m.c3.z
  let c18 := minor m.c1.x m.c3.x m.c1.z m.c3.z
  let c19 := minor m.c1.x m.c2.x m.c1.z m.c2.z
  let c20 := minor m.c2.x m.c3.x m.c2.y m.c3.y
  let c22 := minor m.c1.x m.c3.x m.c1.y m.c3.y
  let c23 := minor m.c1.x m.c2.x m.c1.y m.c2.y
  let f0 : Vec4 K := ⟨c00, c00, c02, c03⟩
  let f1 : Vec4 K := ⟨c04, c04, c06, c07⟩
  let f2 : Vec4 K := ⟨c08, c08, c10, c11⟩
  let f3 : Vec4 K := ⟨c12, c12, c14, c15⟩
  let f4 : Vec4 K := ⟨c16, c16, c18, c19⟩
  let f5 : Vec4 K := ⟨c20, c20, c22, c23⟩
  let v0 : Vec4 K := ⟨m.c1.x, m.c0.x, m.c0.x, m.c0.x⟩
  let v1 : Vec4 K := ⟨m.c1.y, m.c0.y, m.c0.y, m.c0.y⟩
  let v2 : Vec4 K := ⟨m.c1.z, m.c0.z, m.c0.z, m.c0.z⟩
  let v3 : Vec4 K := ⟨m.c1.w, m.c0.w, m.c0.w, m.c0.w⟩
  let even : Vec4 K := ⟨1, -1, 1, -1⟩
  let odd : Vec4 K := ⟨-1, 1, -1, 1⟩
  let i0 := (v1 * f0 - v2 * f1 + v3 * f2) * even
  let i1 := (v0 * f0 - v2 * f3 + v3 * f4) * odd
  let i2 := (v0 * f1 - v1 * f3 + v3 * f5) * even
  let i3 := (v0 * f2 - v1 * f4 + v2 * f5) * odd
  let d := m.c0.x * i0.x + m.c0.y * i1.x + m.c0.z * i2.x + m.c0.w * i3.x
  let r := 1 / d
  ⟨i0.stretch r, i1.stretch r, i2.stretch r, i3.stretch r⟩

/-- The inverse, or the identity where the determinant is next to nothing. -/
def inverseOrIdentity (m : Mat4 K) : Mat4 K :=
  if Scalar.isTiny m.determinant then identity else m.inverse

/-- The matrix that scales, then rotates, then moves. -/
def ofParts (scale : Vec3 K) (rotation : Quat K) (translation : Vec3 K) : Mat4 K :=
  let q := rotation
  let x2 := q.x + q.x
  let y2 := q.y + q.y
  let z2 := q.z + q.z
  let xx := q.x * x2
  let xy := q.x * y2
  let xz := q.x * z2
  let yy := q.y * y2
  let yz := q.y * z2
  let zz := q.z * z2
  let wx := q.w * x2
  let wy := q.w * y2
  let wz := q.w * z2
  let c0 : Vec4 K := ⟨1 - (yy + zz), xy + wz, xz - wy, 0⟩
  let c1 : Vec4 K := ⟨xy - wz, 1 - (xx + zz), yz + wx, 0⟩
  let c2 : Vec4 K := ⟨xz + wy, yz - wx, 1 - (xx + yy), 0⟩
  ⟨c0.stretch scale.x, c1.stretch scale.y, c2.stretch scale.z,
    ⟨translation.x, translation.y, translation.z, 1⟩⟩

end Mat4

end SheepScene
