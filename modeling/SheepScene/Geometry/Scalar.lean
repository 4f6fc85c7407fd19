import SheepScene.Number.Binary32

/-!
# Scalars

Geometry is written once for every type of numbers that has these operations: the 32-bit floats on
which a scene runs, and exact numbers on which its laws can be stated. Comparisons are Boolean, so
that nothing is assumed of numbers that compare with nothing.
-/

set_option autoImplicit false

namespace SheepScene

/-- Numbers for coordinates. -/
class Scalar (K : Type) extends Add K, Sub K, Mul K, Div K, Neg K where
  ofInt : Int → K
  /-- What counts as zero in a divisor. -/
  epsilon : K
  lt : K → K → Bool
  le : K → K → Bool
  abs : K → K
  /-- The largest whole number that is not above. -/
  floor : K → K
  /-- The nearest whole number; a half goes away from zero. -/
  round : K → K

namespace Scalar

variable {K : Type} [Scalar K]

instance (n : Nat) : OfNat K n :=
  ⟨ofInt n⟩

/-- The second number unless the first is smaller. -/
def least (a b : K) : K :=
  if lt a b then a else b

/-- The second number unless the first is greater. -/
def greatest (a b : K) : K :=
  if lt b a then a else b

/-- A number brought between zero and one. -/
def clamp01 (t : K) : K :=
  if lt t 0 then 0 else if lt 1 t then 1 else t

/-- Whether a number is too small to divide by. -/
def isTiny (x : K) : Bool :=
  lt (abs x) epsilon

end Scalar

instance : Scalar Float32 where
  ofInt := Float32.ofInt
  epsilon := 1e-6
  lt a b := a < b
  le a b := a ≤ b
  abs := Float32.abs
  floor := Binary32.floor
  round := Binary32.round

end SheepScene
