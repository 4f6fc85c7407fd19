import SheepScene.Proofs.Scene.Relinking

/-!
# Matrices without a cache

The matrix of an entity into the world is the product of the matrices on the way up, each of them
computed from a place that the layout may have moved (`Composes`). Nothing in this looks at the
matrices that are kept. Here it is shown what the composition depends on: it is the same in worlds
that differ in what queries settle, and it does not change for an entity when nothing on the way up
from it is touched.
-/

set_option autoImplicit false

namespace SheepScene.World

variable {K B : Type} [Scalar K]

/-! ## Layout -/

/-- A set of entities to which everything below its members belongs. -/
def ClosedBelow (w : World K B) (touched : EntityId → Prop) : Prop :=
  ∀ e parent, w.Above e parent → touched parent → touched e

omit [Scalar K] in
/-- Below nobody there is nothing to close. -/
theorem closed_none (w : World K B) : w.ClosedBelow fun _ => False :=
  fun _ _ _ h => h

/-- The rectangle of an anchored entity is laid out in that of its parent, or else in the viewport.
-/
theorem rectFrom_succ (w : World K B) (steps : Nat) (e : EntityId) :
    w.rectFrom (steps + 1) e = (w.anchoring? e).map fun a =>
      (a.layout (((w.parent? e).bind (w.rectFrom steps)).getD w.viewportRect)).2 := by
  rw [rectFrom]
  cases w.anchoring? e <;> rfl

/-- More steps than there are links above an entity make no difference to its rectangle. -/
theorem rectFrom_add {w : World K B} {steps : Nat} {e : EntityId} (more : Nat)
    (hlen : (w.lineageFrom steps e).length ≤ steps) :
    w.rectFrom (steps + more) e = w.rectFrom steps e := by
  induction steps generalizing e with
  | zero =>
    rw [lineageFrom, List.length_singleton] at hlen
    omega
  | succ steps ih =>
    rw [Nat.succ_add, rectFrom_succ, rectFrom_succ]
    rw [lineageFrom] at hlen
    cases hp : w.parent? e with
    | none => rfl
    | some parent =>
      rw [hp, List.length_cons] at hlen
      rw [Option.bind_some, Option.bind_some, ih (by omega)]

section Layout

variable {w w' : World K B} {touched : EntityId → Prop}
  (closed : w.ClosedBelow touched)
  (parents : ∀ e, ¬ touched e → w'.parent? e = w.parent? e)
  (anchorings : ∀ e, ¬ touched e → w'.anchoring? e = w.anchoring? e)
  (viewport : w'.viewport = w.viewport)
include closed parents anchorings viewport

/-- The rectangle of an entity depends on what is above it. -/
theorem rectFrom_untouched (steps : Nat) {e : EntityId} (he : ¬ touched e) :
    w'.rectFrom steps e = w.rectFrom steps e := by
  have outermost : w'.viewportRect = w.viewportRect := by
    unfold viewportRect
    rw [viewport]
  induction steps generalizing e with
  | zero =>
    unfold rectFrom
    rw [anchorings e he, outermost]
  | succ steps ih =>
    rw [rectFrom_succ, rectFrom_succ, anchorings e he, parents e he, outermost]
    cases hp : w.parent? e with
    | none => rfl
    | some parent => rw [Option.bind_some, Option.bind_some, ih fun h => he (closed e parent hp h)]

/-- The position that follows from the layout of an entity depends on what is above it. -/
theorem derivedPosition?_untouched (size : w'.entities.size = w.entities.size) {e : EntityId}
    (he : ¬ touched e) : w'.derivedPosition? e = w.derivedPosition? e := by
  have outer : w'.parentRect e = w.parentRect e := by
    unfold parentRect viewportRect
    rw [parents e he, viewport]
    cases hp : w.parent? e with
    | none => rfl
    | some parent =>
      have hparent : ¬ touched parent := fun h => he (closed e parent hp h)
      rw [Option.bind_some, Option.bind_some, rect?, rect?, size,
        rectFrom_untouched closed parents anchorings viewport _ hparent]
  unfold derivedPosition?
  rw [anchorings e he, outer]

end Layout

/-- Where all links, anchorings and the viewport are the same, the layout is. -/
theorem derivedPosition?_congr {w w' : World K B} (size : w'.entities.size = w.entities.size)
    (parents : ∀ e, w'.parent? e = w.parent? e)
    (anchorings : ∀ e, w'.anchoring? e = w.anchoring? e) (viewport : w'.viewport = w.viewport)
    (e : EntityId) : w'.derivedPosition? e = w.derivedPosition? e :=
  derivedPosition?_untouched (closed_none w)
    (fun e _ => parents e) (fun e _ => anchorings e) viewport size id

/-! ## Composition -/

/-- A place where the layout puts it. -/
def laidOut (w : World K B) (e : EntityId) (t : Transform K) : Transform K :=
  match w.derivedPosition? e with
  | some derived => { t with position := { t.position with x := derived.x, y := derived.y } }
  | none => t

/-- The matrix of an entity into its parent's space. -/
def ownMatrix? (w : World K B) (e : EntityId) : Option (Mat4 K) :=
  (w.transform? e).map fun t => (w.laidOut e t).localMatrix

/-- The matrix of an entity into the world, composed from the root down. -/
inductive Composes (w : World K B) : EntityId → Mat4 K → Prop where
  | root {e own} : w.ownMatrix? e = some own → w.parent? e = none → Composes w e own
  | under {e own parent above} : w.ownMatrix? e = some own → w.parent? e = some parent →
      Composes w parent above → Composes w e (above * own)

/-- There is one composition at most. -/
theorem Composes.unique {w : World K B} {e : EntityId} {m m' : Mat4 K} (h : w.Composes e m)
    (h' : w.Composes e m') : m = m' := by
  induction h generalizing m' with
  | root hown hparent =>
    cases h' with
    | root hown' => exact Option.some.inj (hown.symm.trans hown')
    | under _ hparent' => exact nomatch hparent.symm.trans hparent'
  | under hown hparent _ ih =>
    cases h' with
    | root _ hparent' => exact nomatch hparent'.symm.trans hparent
    | under hown' hparent' habove' =>
      cases hown.symm.trans hown'
      cases hparent.symm.trans hparent'
      rw [ih habove']

/-- Only an entity with a transform composes a matrix. -/
theorem Composes.isSome_transform? {w : World K B} {e : EntityId} {m : Mat4 K}
    (h : w.Composes e m) : (w.transform? e).isSome := by
  have placed : ∀ {own}, w.ownMatrix? e = some own → (w.transform? e).isSome := by
    intro own hown
    obtain ⟨t, ht, -⟩ := Option.map_eq_some_iff.1 hown
    rw [ht, Option.isSome_some]
  cases h with
  | root hown => exact placed hown
  | under hown => exact placed hown

/-- The composition for an entity depends on what is above it. -/
theorem Composes.untouched {w w' : World K B} {touched : EntityId → Prop}
    (closed : w.ClosedBelow touched)
    (parents : ∀ e, ¬ touched e → w'.parent? e = w.parent? e)
    (own : ∀ e, ¬ touched e → w'.ownMatrix? e = w.ownMatrix? e) {e : EntityId} {m : Mat4 K}
    (h : w.Composes e m) (he : ¬ touched e) : w'.Composes e m := by
  induction h with
  | root hown hparent => exact .root ((own _ he).trans hown) ((parents _ he).trans hparent)
  | under hown hparent _ ih =>
    refine .under ((own _ he).trans hown) ((parents _ he).trans hparent) (ih fun h => he ?_)
    exact closed _ _ hparent h

/-- Queries do not change what a matrix is composed of. -/
theorem ownMatrix?_settles {w w' : World K B} (h : Settles w w') (e : EntityId) :
    w'.ownMatrix? e = w.ownMatrix? e := by
  have links := h.sameLinks
  have viewport : w'.viewport = w.viewport := by rw [h.rest]
  have derived := derivedPosition?_congr h.size links.parent? links.onlyPlaces.anchoring? viewport e
  have matrices : ∀ t t' : Transform K,
      Entity.fixedPlace (w.anchoring? e).isSome t' = Entity.fixedPlace (w.anchoring? e).isSome t →
      (w'.laidOut e t').localMatrix = (w.laidOut e t).localMatrix := by
    intro t t' hfixed
    simp only [Entity.fixedPlace, Prod.mk.injEq] at hfixed
    obtain ⟨-, -, hposition, hz, hrotation, hscale⟩ := hfixed
    unfold laidOut
    rw [derived]
    cases ha : w.anchoring? e with
    | none =>
      rw [ha] at hposition
      have hposition : t'.position = t.position := by simpa using hposition
      simp only [derivedPosition?, ha, Option.map_none, Transform.localMatrix, hposition,
        hrotation, hscale]
    | some a =>
      simp only [derivedPosition?, ha, Option.map_some, Transform.localMatrix, hz, hrotation,
        hscale]
  have hentity := h.entity e
  have hanchoring : w.anchoring? e = (w.entity? e).bind (·.anchoring) := rfl
  unfold ownMatrix? transform?
  cases hx : w.entity? e <;> cases hx' : w'.entity? e <;> rw [hx, hx'] at hentity
  · rfl
  · cases hentity
  · cases hentity
  · rename_i x x'
    simp only [Option.map_some, Option.some.injEq, Entity.settled, Prod.mk.injEq] at hentity
    obtain ⟨-, ha, -, hplace⟩ := hentity
    rw [hx, Option.bind_some] at hanchoring
    rw [Option.bind_some, Option.bind_some]
    rw [ha, ← hanchoring] at hplace
    cases ht : x.transform <;> cases ht' : x'.transform <;> rw [ht, ht'] at hplace
    · rfl
    · cases hplace
    · cases hplace
    · rw [Option.map_some, Option.map_some, matrices _ _ (Option.some.inj hplace)]

/-- Queries do not change what an entity composes. -/
theorem Composes.settles {w w' : World K B} (h : Settles w w') {e : EntityId} {m : Mat4 K}
    (hm : w.Composes e m) : w'.Composes e m :=
  hm.untouched (closed_none w)
    (fun e _ => h.sameLinks.parent? e) (fun e _ => ownMatrix?_settles h e) id

end SheepScene.World
