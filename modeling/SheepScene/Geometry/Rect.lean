import SheepScene.Geometry.Vector

/-!
# Rectangles and anchored layout

A rectangle has a lower left corner and a size. An `Anchoring` places a rectangle inside another
one: its corners hang at two anchor points of the outer rectangle, at offsets that do not depend on
the outer size.
-/

set_option autoImplicit false

namespace SheepScene

/-- A rectangle with the y axis pointing up. -/
structure Rect (K : Type) where
  x : K
  y : K
  width : K
  height : K
  deriving DecidableEq, Repr

variable {K : Type} [Scalar K]

namespace Rect

/-- The rectangle with two opposite corners, in any order. -/
def ofCorners (a b : Vec2 K) : Rect K :=
  let low := a.least b
  let high := a.greatest b
  ⟨low.x, low.y, high.x - low.x, high.y - low.y⟩

/-- The rectangle of no size at the origin. -/
def zero : Rect K :=
  ⟨0, 0, 0, 0⟩

/-- The lower left corner. -/
def low (r : Rect K) : Vec2 K :=
  ⟨r.x, r.y⟩

/-- The upper right corner. -/
def high (r : Rect K) : Vec2 K :=
  ⟨r.x + r.width, r.y + r.height⟩

/-- Width and height. -/
def size (r : Rect K) : Vec2 K :=
  ⟨r.width, r.height⟩

/-- The point at fractions of the width and the height. -/
def pointAt (r : Rect K) (fraction : Vec2 K) : Vec2 K :=
  r.low + r.size * fraction

/-- The point in the middle. -/
def center (r : Rect K) : Vec2 K :=
  r.pointAt (.splat (1 / 2))

/-- Whether a point is inside or on the edge. -/
def contains (r : Rect K) (p : Vec2 K) : Bool :=
  Scalar.le r.low.x p.x && Scalar.le p.x r.high.x && Scalar.le r.low.y p.y
    && Scalar.le p.y r.high.y

end Rect

/-- How a rectangle hangs in the one around it. -/
structure Anchoring (K : Type) where
  /-- The anchor points, as fractions of the outer rectangle. -/
  anchorMin : Vec2 K
  anchorMax : Vec2 K
  /-- The fixed point, as a fraction of the rectangle itself. -/
  pivot : Vec2 K
  /-- The offset of the pivot from its place between the anchors. -/
  anchoredPosition : Vec2 K
  /-- What the size has beyond the span of the anchors. -/
  sizeDelta : Vec2 K
  /-- Whether the place is rounded to whole units. -/
  pixelPerfect : Bool
  deriving DecidableEq, Repr

namespace Anchoring

/-- A square of a hundred units at the centre. -/
def centered : Anchoring K where
  anchorMin := .splat (1 / 2)
  anchorMax := .splat (1 / 2)
  pivot := .splat (1 / 2)
  anchoredPosition := .splat 0
  sizeDelta := .splat 100
  pixelPerfect := false

/-- The whole of the outer rectangle. -/
def stretched : Anchoring K :=
  { centered with
    anchorMin := .splat 0
    anchorMax := .splat 1
    pivot := .splat 0
    sizeDelta := .splat 0 }

/-- The place of the pivot in the outer rectangle, and the rectangle relative to its pivot. -/
def layout (a : Anchoring K) (outer : Rect K) : Vec2 K × Rect K :=
  let low := outer.pointAt a.anchorMin
  let span := outer.pointAt a.anchorMax - low
  let size := span + a.sizeDelta
  let corner := -(size * a.pivot)
  let position := low + span * a.pivot + a.anchoredPosition
  if a.pixelPerfect then
    (position.floor,
      ⟨Scalar.floor corner.x, Scalar.floor corner.y, Scalar.round size.x, Scalar.round size.y⟩)
  else
    (position, ⟨corner.x, corner.y, size.x, size.y⟩)

end Anchoring

end SheepScene
