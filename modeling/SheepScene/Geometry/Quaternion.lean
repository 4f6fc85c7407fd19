import SheepScene.Geometry.Vector

/-!
# Rotations

Rotations in space as quaternions. Products do not normalise: a quaternion that is not of unit
length also scales, and `inverse` is the conjugate whatever the length.
-/

set_option autoImplicit false

namespace SheepScene

/-- A quaternion with real part `w`. -/
structure Quat (K : Type) where
  x : K
  y : K
  z : K
  w : K
  deriving DecidableEq, Repr

namespace Quat

variable {K : Type} [Scalar K]

/-- No rotation. -/
def identity : Quat K :=
  ⟨0, 0, 0, 1⟩

/-- The rotation `b` followed by the rotation `a`. -/
def mul (a b : Quat K) : Quat K :=
  ⟨a.w * b.x + a.x * b.w + a.y * b.z - a.z * b.y,
    a.w * b.y - a.x * b.z + a.y * b.w + a.z * b.x,
    a.w * b.z + a.x * b.y - a.y * b.x + a.z * b.w,
    a.w * b.w - a.x * b.x - a.y * b.y - a.z * b.z⟩

instance : Mul (Quat K) := ⟨mul⟩

/-- The conjugate, which undoes a rotation of unit length. -/
def inverse (q : Quat K) : Quat K :=
  ⟨-q.x, -q.y, -q.z, q.w⟩

/-- The square of the length. -/
def lengthSquared (q : Quat K) : K :=
  q.x * q.x + q.y * q.y + q.z * q.z + q.w * q.w

/-- The imaginary part. -/
def imaginary (q : Quat K) : Vec3 K :=
  ⟨q.x, q.y, q.z⟩

/-- A vector turned by a rotation. -/
def rotate (q : Quat K) (v : Vec3 K) : Vec3 K :=
  let b := q.imaginary
  v.stretch (q.w * q.w - b.dot b) + b.stretch (v.dot b * 2) + (b.cross v).stretch (q.w * 2)

/-- The quaternion brought to unit length; the identity where there is next to no length. -/
def normalizeOrIdentity (sqrt : K → K) (q : Quat K) : Quat K :=
  let squared := q.lengthSquared
  if Scalar.lt squared Scalar.epsilon then identity
  else
    let s := 1 / sqrt squared
    ⟨q.x * s, q.y * s, q.z * s, q.w * s⟩

end Quat

end SheepScene
