import SheepScene.Scene.Hierarchy

/-!
# Rectangles in the tree

A rectangle is laid out in the rectangle of its parent, and in the viewport where the parent has
none. Nothing of this is kept: the rectangles are computed from the anchorings on the way up.
-/

set_option autoImplicit false

namespace SheepScene

/-- The rectangle of a viewport. -/
def Viewport.rect {K : Type} [Scalar K] (v : Viewport) : Rect K :=
  ⟨0, 0, Scalar.ofInt v.width.toInt, Scalar.ofInt v.height.toInt⟩

namespace AnchoringChange

variable {K : Type}

/-- The anchoring after a change. -/
def apply (change : AnchoringChange K) (a : Anchoring K) : Anchoring K :=
  match change with
  | .anchor v => { a with anchorMin := v, anchorMax := v }
  | .anchorMin v => { a with anchorMin := v }
  | .anchorMax v => { a with anchorMax := v }
  | .pivot v => { a with pivot := v }
  | .anchoredPosition v => { a with anchoredPosition := v }
  | .sizeDelta v => { a with sizeDelta := v }
  | .sizeDeltaX x => { a with sizeDelta := { a.sizeDelta with x } }
  | .sizeDeltaY y => { a with sizeDelta := { a.sizeDelta with y } }
  | .pixelPerfect b => { a with pixelPerfect := b }

/-- The name of a change in warnings. -/
def name : AnchoringChange K → String
  | .anchor _ => "set_anchor"
  | .anchorMin _ => "set_anchor_min"
  | .anchorMax _ => "set_anchor_max"
  | .pivot _ => "set_pivot"
  | .anchoredPosition _ => "set_anchored_position"
  | .sizeDelta _ => "set_size_delta"
  | .sizeDeltaX _ => "set_size_delta_x"
  | .sizeDeltaY _ => "set_size_delta_y"
  | .pixelPerfect _ => "set_pixel_perfect"

end AnchoringChange

namespace World

variable {K B : Type} [Scalar K]

/-- The rectangle of the viewport, or nothing at the origin. -/
def viewportRect (w : World K B) : Rect K :=
  match w.viewport with
  | some v => v.rect
  | none => .zero

/-- The rectangle of an entity relative to its pivot, on at most `steps` links up. -/
def rectFrom (w : World K B) (steps : Nat) (e : EntityId) : Option (Rect K) :=
  match w.anchoring? e with
  | none => none
  | some a =>
    let outer := match steps with
      | 0 => none
      | steps + 1 => (w.parent? e).bind (w.rectFrom steps)
    some (a.layout (outer.getD w.viewportRect)).2

/-- The rectangle of an entity relative to its pivot. -/
def rect? (w : World K B) (e : EntityId) : Option (Rect K) :=
  w.rectFrom w.entities.size e

/-- The rectangle in which an entity is laid out. -/
def parentRect (w : World K B) (e : EntityId) : Rect K :=
  ((w.parent? e).bind w.rect?).getD w.viewportRect

/-- The place of an entity's pivot that follows from its layout. -/
def derivedPosition? (w : World K B) (e : EntityId) : Option (Vec2 K) :=
  (w.anchoring? e).map fun a => (a.layout (w.parentRect e)).1

omit [Scalar K] in
/-- Changes the anchoring of an entity. -/
def changeAnchoring (w : World K B) (e : EntityId) (change : AnchoringChange K) : World K B :=
  match w.anchoring? e with
  | some _ =>
    (w.modifyEntity e fun entity =>
      { entity with anchoring := entity.anchoring.map change.apply }).invalidate e
  | none => w.warn s!"{change.name}: entity {e.index} has no rect transform"

omit [Scalar K] in
/-- The entities that are laid out as rectangles. -/
def rectNodes (w : World K B) : List EntityId :=
  ((List.range w.entities.size).map EntityId.mk).filter fun e => (w.anchoring? e).isSome

omit [Scalar K] in
/-- Changes the viewport, and with it every rectangle. -/
def setViewport (w : World K B) (viewport : Viewport) : World K B :=
  let resized := { w with viewport := some viewport }
  resized.rectNodes.foldl invalidate resized

end World

end SheepScene
