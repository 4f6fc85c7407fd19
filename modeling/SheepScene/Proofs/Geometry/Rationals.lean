import Mathlib.Algebra.Order.Field.Rat
import Mathlib.Data.Rat.Floor
import Mathlib.Tactic.Linarith
import Mathlib.Tactic.Ring
import SheepScene.Scene.Mover

/-!
# Exact scalars

Rational numbers as scalars, on which what is said of coordinates holds exactly. The lemmas here
read the operations of `Scalar` back as those of rational numbers.
-/

set_option autoImplicit false

namespace SheepScene

instance : Scalar ℚ where
  ofInt n := n
  epsilon := 1 / 1000000
  lt a b := a < b
  le a b := a ≤ b
  abs a := |a|
  floor a := ⌊a⌋
  round a := if a < 0 then -⌊1 / 2 - a⌋ else ⌊a + 1 / 2⌋

namespace Scalar

/-! ## Operations -/

/-- The zero of the scalars is the zero of the rationals. -/
@[simp] theorem zero_rat : (@OfNat.ofNat ℚ 0 (instOfNat 0)) = (0 : ℚ) :=
  rfl

/-- The one of the scalars is the one of the rationals. -/
@[simp] theorem one_rat : (@OfNat.ofNat ℚ 1 (instOfNat 1)) = (1 : ℚ) :=
  rfl

/-- The comparison of the scalars is the order of the rationals. -/
@[simp] theorem lt_rat {a b : ℚ} : lt a b = true ↔ a < b :=
  decide_eq_true_iff

/-- The comparison of the scalars that allows for equality is the order of the rationals as well. -/
@[simp] theorem le_rat {a b : ℚ} : le a b = true ↔ a ≤ b :=
  decide_eq_true_iff

/-- A number brought between zero and one. -/
theorem clamp01_rat (t : ℚ) : clamp01 t = max 0 (min t 1) := by
  unfold clamp01
  simp only [lt_rat, zero_rat, one_rat]
  split
  · rename_i negative
    rw [min_eq_left (by linarith), max_eq_left (le_of_lt negative)]
  · rename_i nonneg
    split
    · rename_i large
      rw [min_eq_right (le_of_lt large), max_eq_right zero_le_one]
    · rename_i small
      rw [min_eq_left (not_lt.1 small), max_eq_right (not_lt.1 nonneg)]

/-- Clamping a number that is not negative cuts it at one. -/
theorem clamp01_of_nonneg {t : ℚ} (nonneg : 0 ≤ t) : clamp01 t = min t 1 := by
  rw [clamp01_rat, max_eq_right (le_min nonneg zero_le_one)]

end Scalar

/-! ## Easing -/

namespace Easing

/-- All ways to ease begin where the time does. -/
theorem ease_zero (easing : Easing) : easing.ease (0 : ℚ) = 0 := by
  cases easing <;> decide +kernel

/-- All ways to ease are at the end when the time is. -/
theorem ease_one (easing : Easing) : easing.ease (1 : ℚ) = 1 := by
  cases easing <;> decide +kernel

end Easing

/-! ## Lines -/

namespace Vec3

/-- Interpolating goes that share of the way from one point to the other. -/
theorem lerp_rat (a b : Vec3 ℚ) (s : ℚ) : a.lerp b s = a + (b - a).stretch s := by
  change (⟨a.x * (1 - s) + b.x * s, a.y * (1 - s) + b.y * s, a.z * (1 - s) + b.z * s⟩ : Vec3 ℚ)
    = ⟨a.x + (b.x - a.x) * s, a.y + (b.y - a.y) * s, a.z + (b.z - a.z) * s⟩
  ring_nf

/-- The way begins where it leads from. -/
theorem lerp_zero (a b : Vec3 ℚ) : a.lerp b 0 = a := by
  rw [lerp_rat]
  change (⟨a.x + (b.x - a.x) * 0, a.y + (b.y - a.y) * 0, a.z + (b.z - a.z) * 0⟩ : Vec3 ℚ) = a
  ring_nf

/-- At the end of the way is the point it leads to. -/
theorem lerp_one (a b : Vec3 ℚ) : a.lerp b 1 = b := by
  rw [lerp_rat]
  change (⟨a.x + (b.x - a.x) * 1, a.y + (b.y - a.y) * 1, a.z + (b.z - a.z) * 1⟩ : Vec3 ℚ) = b
  ring_nf

end Vec3

end SheepScene
