import SheepScene.Geometry.Scalar

/-!
# Vectors

Points, offsets and scales in the plane and in space. Sums, differences and products are taken
coordinate by coordinate. The order of operations is part of each definition: with rounding it
decides the last digit.
-/

set_option autoImplicit false

namespace SheepScene

/-- A pair of coordinates. -/
structure Vec2 (K : Type) where
  x : K
  y : K
  deriving DecidableEq, Repr

/-- A triple of coordinates. -/
structure Vec3 (K : Type) where
  x : K
  y : K
  z : K
  deriving DecidableEq, Repr

variable {K : Type} [Scalar K]

namespace Vec2

/-- Both coordinates the same. -/
def splat (a : K) : Vec2 K :=
  ⟨a, a⟩

/-- An operation on each pair of coordinates. -/
def zipWith (f : K → K → K) (a b : Vec2 K) : Vec2 K :=
  ⟨f a.x b.x, f a.y b.y⟩

instance : Add (Vec2 K) := ⟨zipWith (· + ·)⟩
instance : Sub (Vec2 K) := ⟨zipWith (· - ·)⟩
instance : Mul (Vec2 K) := ⟨zipWith (· * ·)⟩
instance : Neg (Vec2 K) := ⟨fun a => ⟨-a.x, -a.y⟩⟩

/-- The smaller of each pair of coordinates. -/
def least (a b : Vec2 K) : Vec2 K :=
  zipWith Scalar.least a b

/-- The greater of each pair of coordinates. -/
def greatest (a b : Vec2 K) : Vec2 K :=
  zipWith Scalar.greatest a b

/-- Whole coordinates, rounded down. -/
def floor (a : Vec2 K) : Vec2 K :=
  ⟨Scalar.floor a.x, Scalar.floor a.y⟩

end Vec2

namespace Vec3

/-- All coordinates the same. -/
def splat (a : K) : Vec3 K :=
  ⟨a, a, a⟩

/-- An operation on each pair of coordinates. -/
def zipWith (f : K → K → K) (a b : Vec3 K) : Vec3 K :=
  ⟨f a.x b.x, f a.y b.y, f a.z b.z⟩

instance : Add (Vec3 K) := ⟨zipWith (· + ·)⟩
instance : Sub (Vec3 K) := ⟨zipWith (· - ·)⟩
instance : Mul (Vec3 K) := ⟨zipWith (· * ·)⟩

/-- A vector stretched by a number. -/
def stretch (a : Vec3 K) (s : K) : Vec3 K :=
  ⟨a.x * s, a.y * s, a.z * s⟩

/-- The scalar product. -/
def dot (a b : Vec3 K) : K :=
  a.x * b.x + a.y * b.y + a.z * b.z

/-- The vector product. -/
def cross (a b : Vec3 K) : Vec3 K :=
  ⟨a.y * b.z - b.y * a.z, a.z * b.x - b.z * a.x, a.x * b.y - b.x * a.y⟩

/-- The point at the fraction `s` of the way from `a` to `b`. -/
def lerp (a b : Vec3 K) (s : K) : Vec3 K :=
  a.stretch (1 - s) + b.stretch s

/-- Division coordinate by coordinate, where dividing by next to nothing gives zero. -/
def safeDiv (a b : Vec3 K) : Vec3 K :=
  let div := fun n d => if Scalar.isTiny d then 0 else n / d
  zipWith div a b

/-- The first two coordinates. -/
def flat (a : Vec3 K) : Vec2 K :=
  ⟨a.x, a.y⟩

/-- The directions of the axes. -/
def unitX : Vec3 K := ⟨1, 0, 0⟩

@[inherit_doc unitX]
def unitY : Vec3 K := ⟨0, 1, 0⟩

@[inherit_doc unitX]
def unitZ : Vec3 K := ⟨0, 0, 1⟩

end Vec3

/-- A point of the plane as one of space. -/
def Vec2.lift (a : Vec2 K) (z : K) : Vec3 K :=
  ⟨a.x, a.y, z⟩

end SheepScene
