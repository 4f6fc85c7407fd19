import SheepScene.Proofs.Geometry.Rationals
import SheepScene.Proofs.Scene.Roofs

/-!
# Edges that hang at anchors

A rectangle hangs at two points of the one around it. Over exact numbers its corners are at these
points but for offsets that its anchoring alone decides, whatever becomes of the outer rectangle.
This is so at every depth, since the rectangle that was computed with a bounded number of links is
the one that the rectangle of the parent leads to (`World.rect?_eq`). So what is stretched over its
parent, and so on up to the viewport, is stretched over the viewport
(`anchored_edges_keep_their_offsets`).
-/

set_option autoImplicit false

namespace SheepScene

/-! ## One rectangle in another -/

/-- A rectangle put elsewhere. -/
def Rect.shift {K : Type} [Scalar K] (r : Rect K) (offset : Vec2 K) : Rect K :=
  { r with x := r.x + offset.x, y := r.y + offset.y }

/-- A rectangle with its lower left corner at the origin and a size in whole units. -/
def Rect.Whole (r : Rect ℚ) : Prop :=
  ∃ width height : Int, r = ⟨0, 0, width, height⟩

namespace Vec2

/-- Going somewhere from a point and then back to it. -/
theorem add_sub_sub_self (p q r : Vec2 ℚ) : p + q - r - p = q - r :=
  have axis : ∀ a b c : ℚ, a + b - c - a = b - c := fun a b c => by ring
  congrArg₂ Vec2.mk (axis ..) (axis ..)

/-- Going there from a point that is left again. -/
theorem add_add_sub_self (p q r : Vec2 ℚ) : p + q + r - p = q + r :=
  have axis : ∀ a b c : ℚ, a + b + c - a = b + c := fun a b c => by ring
  congrArg₂ Vec2.mk (axis ..) (axis ..)

end Vec2

namespace Scalar

/-- A whole number is its own floor. -/
theorem floor_intCast (n : Int) : floor (n : ℚ) = n :=
  congrArg Int.cast (Int.floor_intCast n)

/-- A whole number is rounded to itself, whatever its sign. -/
theorem round_intCast (n : Int) : round (n : ℚ) = n := by
  have half : ⌊(1 / 2 : ℚ)⌋ = 0 := by norm_num
  change (if (n : ℚ) < 0 then -(⌊1 / 2 - (n : ℚ)⌋ : ℚ) else (⌊(n : ℚ) + 1 / 2⌋ : ℚ)) = n
  split
  · rw [Int.floor_sub_intCast, half, zero_sub, Int.cast_neg, neg_neg]
  · rw [Int.floor_intCast_add, half, add_zero]

end Scalar

namespace Anchoring

/-- On each axis the pivot and the size together put the lower edge at its anchor. -/
theorem low_edge (low high delta pivot offset : ℚ) :
    -((high - low + delta) * pivot) + (low + (high - low) * pivot + offset)
      = low + offset - delta * pivot := by
  ring

/-- On each axis the pivot and the size together put the upper edge at its anchor. -/
theorem high_edge (low high delta pivot offset : ℚ) :
    -((high - low + delta) * pivot) + (low + (high - low) * pivot + offset) + (high - low + delta)
      = high + offset + delta * (1 - pivot) := by
  ring

section Exact

variable {a : Anchoring ℚ} (exact : a.pixelPerfect = false) (outer : Rect ℚ)
include exact

/-- The low corner of a laid-out rectangle, from the anchor below. -/
theorem low_layout : ((a.layout outer).2.shift (a.layout outer).1).low
    = outer.pointAt a.anchorMin + a.anchoredPosition - a.sizeDelta * a.pivot := by
  unfold layout
  rw [exact]
  exact congrArg₂ Vec2.mk (low_edge ..) (low_edge ..)

/-- Its high corner, from the anchor above. -/
theorem high_layout : ((a.layout outer).2.shift (a.layout outer).1).high
    = outer.pointAt a.anchorMax + a.anchoredPosition + a.sizeDelta * (.splat 1 - a.pivot) := by
  unfold layout
  rw [exact]
  exact congrArg₂ Vec2.mk (high_edge ..) (high_edge ..)

end Exact

/-- Between the anchors of what is stretched there is the whole size. -/
theorem span_stretched (size : ℚ) : 0 + size * 1 - (0 + size * 0) + 0 = size := by
  ring

/-- The pivot of what is stretched is at the lower anchor. -/
theorem pivot_stretched (size : ℚ) :
    0 + size * 0 + (0 + size * 1 - (0 + size * 0)) * 0 + 0 = 0 := by
  ring

/-- What is stretched over a rectangle of whole units at the origin takes all of it, whether it is
rounded or not. -/
theorem layout_stretched {outer : Rect ℚ} (whole : outer.Whole) (pixelPerfect : Bool) :
    ({ stretched with pixelPerfect } : Anchoring ℚ).layout outer = (.splat 0, outer) := by
  obtain ⟨width, height, rfl⟩ := whole
  have corner : ∀ size : ℚ, -((0 + size * 1 - (0 + size * 0) + 0) * 0) = 0 := fun size => by ring
  cases pixelPerfect with
  | false =>
    refine Prod.ext (congrArg₂ Vec2.mk (pivot_stretched _) (pivot_stretched _)) ?_
    exact (Rect.mk.injEq ..).mpr ⟨corner _, corner _, span_stretched _, span_stretched _⟩
  | true =>
    have floor : ∀ {x : ℚ}, x = 0 → Scalar.floor x = 0 := by
      rintro _ rfl
      exact Scalar.floor_intCast 0
    have round : ∀ {x : ℚ} {n : Int}, x = n → Scalar.round x = n := by
      rintro _ n rfl
      exact Scalar.round_intCast n
    refine Prod.ext (congrArg₂ Vec2.mk (floor (pivot_stretched _)) (floor (pivot_stretched _))) ?_
    exact (Rect.mk.injEq ..).mpr ⟨floor (corner _), floor (corner _), round (span_stretched _),
      round (span_stretched _)⟩

end Anchoring

namespace World

variable {B : Type}

/-! ## Rectangles at every depth -/

section Depth

variable {K : Type} [Scalar K] {w w' : World K B} {e : EntityId}

/-- How many rectangles there are on the way up from an entity. -/
def framesFrom (w : World K B) (steps : Nat) (e : EntityId) : Nat :=
  (w.lineageFrom steps e).countP fun x => (w.anchoring? x).isSome

omit [Scalar K] in
/-- An anchored entity has one frame more around it than its parent. -/
theorem framesFrom_succ {a : Anchoring K} {p : EntityId} (anchored : w.anchoring? e = some a)
    (up : w.parent? e = some p) (steps : Nat) :
    w.framesFrom (steps + 1) e = w.framesFrom steps p + 1 := by
  have walk : w.lineageFrom (steps + 1) e = e :: w.lineageFrom steps p := by rw [lineageFrom, up]
  rw [framesFrom, walk]
  exact List.countP_cons_of_pos (by rw [anchored, Option.isSome_some])

/-- An entity without an anchoring has no rectangle. -/
theorem rectFrom_none (steps : Nat) (free : w.anchoring? e = none) : w.rectFrom steps e = none := by
  rw [rectFrom.eq_def, free]

/-- One step more makes no difference where the steps reach all rectangles on the way up. -/
theorem rectFrom_succ_eq {steps : Nat} (enough : w.framesFrom (steps + 1) e ≤ steps + 1) :
    w.rectFrom (steps + 1) e = w.rectFrom steps e := by
  induction steps generalizing e with
  | zero =>
    cases anchored : w.anchoring? e with
    | none => rw [rectFrom_none _ anchored, rectFrom_none _ anchored]
    | some a =>
      rw [rectFrom_succ, rectFrom, anchored]
      cases up : w.parent? e with
      | none => rfl
      | some p =>
        -- the entity is the one rectangle there is
        have free : w.anchoring? p = none := by
          by_contra outer
          rw [framesFrom_succ anchored up, framesFrom, lineageFrom, List.countP_singleton,
            if_pos (Option.isSome_iff_ne_none.2 outer)] at enough
          omega
        rw [Option.bind_some, rectFrom_none 0 free]
        rfl
  | succ steps ih =>
    rw [rectFrom_succ, rectFrom_succ w steps]
    cases anchored : w.anchoring? e with
    | none => rfl
    | some a =>
      cases up : w.parent? e with
      | none => rfl
      | some p =>
        rw [framesFrom_succ anchored up] at enough
        rw [Option.bind_some, Option.bind_some, ih (Nat.le_of_succ_le_succ enough)]

/-- A rectangle is laid out in the one around it, at any depth. -/
theorem rect?_eq (acyclic : ∀ x, ¬ Relation.TransGen w.Above x x) (e : EntityId) :
    w.rect? e = (w.anchoring? e).map fun a => (a.layout (w.parentRect e)).2 := by
  have known : ∀ x, (w.anchoring? x).isSome = true → x.index < w.entities.size := by
    intro x anchored
    obtain ⟨a, anchored⟩ := Option.isSome_iff_exists.1 anchored
    obtain ⟨entity, there, -⟩ := Option.bind_eq_some_iff.1 anchored
    exact index_lt_of_entity? there
  have reached := Nat.le_succ_of_le (countP_lineageFrom_le acyclic known (w.entities.size + 1) e)
  rw [rect?, ← rectFrom_succ_eq reached, rectFrom_succ]
  rfl

/-- What has an anchoring has a rectangle and a place. -/
theorem laid_out (acyclic : ∀ x, ¬ Relation.TransGen w.Above x x) {a : Anchoring K}
    (anchored : w.anchoring? e = some a) : w.rect? e = some (a.layout (w.parentRect e)).2 ∧
      w.derivedPosition? e = some (a.layout (w.parentRect e)).1 := by
  rw [rect?_eq acyclic, derivedPosition?, anchored]
  exact ⟨rfl, rfl⟩

end Depth

/-! ## Chains of stretched rectangles -/

section Chains

variable {K : Type} [Scalar K] {w w' : World K B}

/-- An entity is stretched over its parent, which is stretched over its own, and so on up to one
that is laid out in the viewport. -/
inductive Stretches (w : World K B) : EntityId → Prop where
  | top {e} (pixelPerfect : Bool) :
      w.anchoring? e = some { Anchoring.stretched with pixelPerfect } →
      (w.parent? e).bind w.anchoring? = none → Stretches w e
  | under {e parent} (pixelPerfect : Bool) :
      w.anchoring? e = some { Anchoring.stretched with pixelPerfect } →
      w.parent? e = some parent → Stretches w parent → Stretches w e

/-- Stretching depends only on the links and the anchorings. -/
theorem Stretches.congr {e : EntityId} (h : w.Stretches e)
    (parents : ∀ x, w'.parent? x = w.parent? x)
    (anchorings : ∀ x, w'.anchoring? x = w.anchoring? x) : w'.Stretches e := by
  induction h with
  | @top e pixelPerfect anchored outermost =>
    refine .top pixelPerfect ((anchorings e).trans anchored) ?_
    rw [parents]
    cases up : w.parent? e with
    | none => rfl
    | some p =>
      rw [up] at outermost
      exact (anchorings p).trans outermost
  | @under e parent pixelPerfect anchored up _ ih =>
    exact .under pixelPerfect ((anchorings e).trans anchored) ((parents e).trans up) ih

end Chains

/-- The viewport has whole numbers for its corners. -/
theorem whole_viewportRect (w : World ℚ B) : w.viewportRect.Whole := by
  unfold viewportRect
  split
  · rename_i v _
    exact ⟨v.width.toInt, v.height.toInt, rfl⟩
  · exact ⟨0, 0, rfl⟩

/-- Whatever is stretched over the viewport takes all of it, at any depth. -/
theorem Stretches.laid_out {w : World ℚ B} {e : EntityId} (h : w.Stretches e)
    (acyclic : ∀ x, ¬ Relation.TransGen w.Above x x) :
    w.rect? e = some w.viewportRect ∧ w.derivedPosition? e = some (.splat 0) := by
  -- it is enough that the rectangle around it is that of the viewport
  have covers : ∀ {e : EntityId} {pixelPerfect : Bool},
      w.anchoring? e = some { Anchoring.stretched with pixelPerfect } →
      w.parentRect e = w.viewportRect →
      w.rect? e = some w.viewportRect ∧ w.derivedPosition? e = some (.splat 0) := by
    intro e pixelPerfect anchored outer
    have laid := World.laid_out acyclic anchored
    rwa [outer, Anchoring.layout_stretched (whole_viewportRect w)] at laid
  induction h with
  | @top e pixelPerfect anchored outermost =>
    refine covers anchored ?_
    rw [parentRect]
    cases up : w.parent? e with
    | none => rfl
    | some p =>
      rw [up, Option.bind_some] at outermost
      rw [Option.bind_some, rect?, rectFrom_none _ outermost]
      rfl
  | @under e parent pixelPerfect anchored up _ ih =>
    refine covers anchored ?_
    rw [parentRect, up, Option.bind_some, ih.1]
    rfl

end World

section Anchors

variable {B : Type} [Behavior ℚ B]

/-- At every instant of every scene an entity with an anchoring has a rectangle and a place for it
in the rectangle around it. If it is not rounded, its corners are there at the two anchors but for
offsets that depend on the anchoring alone, so they are the same at any other instant of any scene,
whatever the rectangle around it is there. What is stretched over its parent, and so on up to the
viewport, has the rectangle of the viewport and is put at the origin, whatever size the viewport is
given. -/
theorem anchored_edges_keep_their_offsets {w : World ℚ B} (h : AtInstant w) :
    (∀ e a, w.anchoring? e = some a → ∃ r p, w.rect? e = some r ∧ w.derivedPosition? e = some p ∧
      (a.pixelPerfect = false →
        (r.shift p).low
          = (w.parentRect e).pointAt a.anchorMin + a.anchoredPosition - a.sizeDelta * a.pivot ∧
        (r.shift p).high = (w.parentRect e).pointAt a.anchorMax + a.anchoredPosition
          + a.sizeDelta * (.splat 1 - a.pivot) ∧
        ∀ w' : World ℚ B, AtInstant w' → w'.anchoring? e = some a →
          ∃ r' p', w'.rect? e = some r' ∧ w'.derivedPosition? e = some p' ∧
            (r'.shift p').low - (w'.parentRect e).pointAt a.anchorMin
              = (r.shift p).low - (w.parentRect e).pointAt a.anchorMin ∧
            (r'.shift p').high - (w'.parentRect e).pointAt a.anchorMax
              = (r.shift p).high - (w.parentRect e).pointAt a.anchorMax)) ∧
    ∀ e, w.Stretches e →
      (w.rect? e = some w.viewportRect ∧ w.derivedPosition? e = some (.splat 0)) ∧
      ∀ v : Viewport, AtInstant (w.setViewport v) ∧ (w.setViewport v).rect? e = some v.rect ∧
        (w.setViewport v).derivedPosition? e = some (.splat 0) := by
  have acyclic := h.traceable.acyclic
  refine ⟨fun e a anchored => ?_, fun e stretches => ⟨stretches.laid_out acyclic, fun v => ?_⟩⟩
  · obtain ⟨rect, place⟩ := World.laid_out acyclic anchored
    refine ⟨_, _, rect, place, fun exact => ⟨Anchoring.low_layout exact _,
      Anchoring.high_layout exact _, fun w' h' anchored' => ?_⟩⟩
    obtain ⟨rect', place'⟩ := World.laid_out h'.traceable.acyclic anchored'
    refine ⟨_, _, rect', place', ?_, ?_⟩
    · rw [Anchoring.low_layout exact, Anchoring.low_layout exact, Vec2.add_sub_sub_self,
        Vec2.add_sub_sub_self]
    · rw [Anchoring.high_layout exact, Anchoring.high_layout exact, Vec2.add_add_sub_self,
        Vec2.add_add_sub_self]
  · have resized : AtInstant (w.setViewport v) := h.edit (.setViewport v)
    have agrees : SameLinks { w with viewport := some v } (w.setViewport v) :=
      AgreesOn.foldl World.sameLinks_invalidate _
    have shown : (w.setViewport v).viewportRect = v.rect := by
      rw [World.viewportRect, agrees.rest]
    have again := stretches.congr agrees.parent? agrees.onlyPlaces.anchoring?
    exact ⟨resized, shown ▸ again.laid_out resized.traceable.acyclic⟩

end Anchors

/-! ## A bar below the upper edge -/

/-- A bar of 200 units along the upper edge, as wide as what is around it. -/
def bar : Anchoring ℚ where
  anchorMin := ⟨0, 1⟩
  anchorMax := ⟨1, 1⟩
  pivot := ⟨1 / 2, 1⟩
  anchoredPosition := .splat 0
  sizeDelta := ⟨0, 200⟩
  pixelPerfect := false

/-- A bar in two rectangles that are stretched over the viewport, one over the other. -/
def signboard : Program ℚ Empty Unit := do
  let () ← Program.edit (.setViewport ⟨1024, 768⟩)
  let root ← Program.edit (.spawn { ActorSpec.named "root" with anchoring := some .stretched })
  let panel ← Program.edit (.spawn
    { ActorSpec.named "panel" with parent := some root, anchoring := some .stretched })
  let _ ← Program.edit (.spawn
    { ActorSpec.named "bar" with parent := some panel, anchoring := some bar })
  return ()

/-- The upper edge of the bar is that of the inner rectangle, which has the size of the viewport
before and after it gets another one. -/
theorem anchored_edges_keep_their_offsets_signboard : ∃ (w : World ℚ Empty) (r : Rect ℚ)
    (p : Vec2 ℚ), AtInstant w ∧ w.parent? ⟨2⟩ = some ⟨1⟩ ∧ w.rect? ⟨1⟩ = some ⟨0, 0, 1024, 768⟩ ∧
      (w.setViewport ⟨800, 600⟩).rect? ⟨1⟩ = some ⟨0, 0, 800, 600⟩ ∧
      w.rect? ⟨2⟩ = some r ∧ w.derivedPosition? ⟨2⟩ = some p ∧ (r.shift p).high = ⟨1024, 768⟩ := by
  have run : signboard.passes .bare fun _ w => decide (w.anchoring? ⟨0⟩ = some .stretched) &&
      decide (w.anchoring? ⟨1⟩ = some .stretched) && decide (w.anchoring? ⟨2⟩ = some bar) &&
      decide (w.parent? ⟨0⟩ = none) && decide (w.parent? ⟨1⟩ = some ⟨0⟩) &&
      decide (w.parent? ⟨2⟩ = some ⟨1⟩) && decide (w.viewportRect = ⟨0, 0, 1024, 768⟩) := by
    decide +kernel
  obtain ⟨_, w, hrun, checked⟩ := Program.exists_of_passes run
  simp only [Bool.and_eq_true, decide_eq_true_eq] at checked
  obtain ⟨⟨⟨⟨⟨⟨outer, inner⟩, hung⟩, top⟩, up⟩, under⟩, shown⟩ := checked
  have h : AtInstant w := (Reachable.step (.empty rfl rfl rfl rfl)
    (.program (Scope.fit_everything _) hrun)).moment.instant
  have stretches : w.Stretches ⟨1⟩ := .under false inner up (.top false outer (by rw [top]; rfl))
  obtain ⟨edges, chains⟩ := anchored_edges_keep_their_offsets h
  obtain ⟨r, p, rect, place, offsets⟩ := edges ⟨2⟩ bar hung
  obtain ⟨⟨before, -⟩, resized⟩ := chains ⟨1⟩ stretches
  have around : w.parentRect ⟨2⟩ = ⟨0, 0, 1024, 768⟩ := by
    rw [World.parentRect, under, Option.bind_some, before]
    exact shown
  refine ⟨w, r, p, h, under, before.trans (congrArg some shown), (resized ⟨800, 600⟩).2.1.trans ?_,
    rect, place, (offsets rfl).2.1.trans ?_⟩
  · decide +kernel
  · rw [around]
    decide +kernel

end SheepScene
