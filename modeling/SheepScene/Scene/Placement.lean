import SheepScene.Scene.Layout

/-!
# Places in the world

The matrix of an entity into the world is computed when it is asked for and kept until something
that it depends on changes. Setters take a place in the parent's space or in the world; the latter
are carried back through the inverse of what the ancestors do.
-/

set_option autoImplicit false

namespace SheepScene.World

variable {K B : Type}

/-- The name of a setter in warnings. -/
def placementName (inWorld : Bool) : Placement K → String
  | .position _ => if inWorld then "set_world_position" else "set_position"
  | .rotation _ => if inWorld then "set_world_rotation" else "set_rotation"
  | .scale _ => if inWorld then "set_world_scale" else "set_scale"

/-- A place with one part changed. -/
def placed (placement : Placement K) (t : Transform K) : Transform K :=
  match placement with
  | .position v => { t with position := v }
  | .rotation q => { t with rotation := q }
  | .scale v => { t with scale := v }

/-- Changes the place of an entity in its parent's space. -/
def place (w : World K B) (e : EntityId) (placement : Placement K) : World K B :=
  match w.transform? e with
  | some _ => (w.modifyTransform e (placed placement)).invalidate e
  | none => w.warn s!"{placementName false placement}: entity {e.index} has no transform"

variable [Scalar K]

/-- The product of the rotations from the root down to an entity. -/
def worldRotation? (w : World K B) (e : EntityId) : Option (Quat K) :=
  (w.transform? e).map fun t =>
    ((w.ancestors e).filterMap w.transform?).foldl (fun q above => above.rotation * q) t.rotation

/-- The product of the scales from an entity up to the root. -/
def worldScale? (w : World K B) (e : EntityId) : Option (Vec3 K) :=
  (w.transform? e).map fun t =>
    ((w.ancestors e).filterMap w.transform?).foldl (fun s above => s * above.scale) t.scale

/-- A direction of an entity's space in the world. -/
def localToWorldDirection? (w : World K B) (e : EntityId) (v : Vec3 K) : Option (Vec3 K) :=
  (w.worldRotation? e).map fun q => q.rotate v

/-- A direction of the world in an entity's space. -/
def worldToLocalDirection? (w : World K B) (e : EntityId) (v : Vec3 K) : Option (Vec3 K) :=
  (w.worldRotation? e).map fun q => q.inverse.rotate v

/-- The directions forward, right and up of an entity. -/
def axes? (w : World K B) (e : EntityId) : Option (Vec3 K × Vec3 K × Vec3 K) :=
  (w.worldRotation? e).map fun q => (q.rotate .unitZ, q.rotate .unitX, q.rotate .unitY)

/-- Moves an entity that is laid out as a rectangle to where its layout puts it. -/
def applyLayout (w : World K B) (e : EntityId) : World K B :=
  match w.derivedPosition? e with
  | some derived =>
    w.modifyTransform e fun t =>
      { t with position := { t.position with x := derived.x, y := derived.y } }
  | none => w

/-- The matrix of an entity into the world, from that of what is above it and its own. -/
def composed (above : Option (Mat4 K)) (own : Mat4 K) : Mat4 K :=
  match above with
  | some m => m * own
  | none => own

/-- The matrix of an entity into the world, on at most `steps` links up. Matrices that are not
known are computed and kept. -/
def localToWorldFrom (steps : Nat) (w : World K B) (e : EntityId) :
    Option (Mat4 K) × World K B :=
  match w.transform? e with
  | none => (none, w)
  | some t => match t.localToWorld with
    | some known => (some known, w)
    | none =>
      let laid := w.applyLayout e
      let above := match t.parent, steps with
        | some parent, steps + 1 => localToWorldFrom steps laid parent
        | _, _ => (none, laid)
      let matrix := composed above.1 ((laid.transform? e).getD t).localMatrix
      (some matrix,
        above.2.modifyTransform e fun t =>
          { t with localToWorld := some matrix, worldToLocal := none })

/-- The matrix of an entity into the world. -/
def localToWorld (w : World K B) (e : EntityId) : Option (Mat4 K) × World K B :=
  localToWorldFrom w.entities.size w e

/-- The matrix from the world into an entity's space; the identity where there is no inverse. -/
def worldToLocal (w : World K B) (e : EntityId) : Option (Mat4 K) × World K B :=
  match (w.transform? e).bind fun t => if t.isDirty then none else t.worldToLocal with
  | some known => (some known, w)
  | none => match w.localToWorld e with
    | (none, w) => (none, w)
    | (some matrix, w) =>
      let inverse := matrix.inverseOrIdentity
      (some inverse, w.modifyTransform e fun t => { t with worldToLocal := some inverse })

/-- Where an entity is in the world. -/
def worldPosition (w : World K B) (e : EntityId) : Option (Vec3 K) × World K B :=
  let (matrix, w) := w.localToWorld e
  (matrix.map Mat4.origin, w)

/-- A point of an entity's space in the world. -/
def localToWorldPoint (w : World K B) (e : EntityId) (v : Vec3 K) :
    Option (Vec3 K) × World K B :=
  let (matrix, w) := w.localToWorld e
  (matrix.map fun m => m.transformPoint v, w)

/-- A point of the world in an entity's space. -/
def worldToLocalPoint (w : World K B) (e : EntityId) (v : Vec3 K) :
    Option (Vec3 K) × World K B :=
  let (matrix, w) := w.worldToLocal e
  (matrix.map fun m => m.transformPoint v, w)

/-- A place in the world as a place in the space of a parent. -/
def inParentSpace (w : World K B) (parent : EntityId) (placement : Placement K) :
    Placement K × World K B :=
  match placement with
  | .position v =>
    let (matrix, w) := w.worldToLocal parent
    (.position ((matrix.map fun m => m.transformPoint v).getD v), w)
  | .rotation q =>
    (.rotation (((w.worldRotation? parent).map fun above => above.inverse * q).getD q), w)
  | .scale v => (.scale (((w.worldScale? parent).map fun above => v.safeDiv above).getD v), w)

/-- Changes the place of an entity in the world. -/
def placeInWorld (w : World K B) (e : EntityId) (placement : Placement K) : World K B :=
  match w.transform? e with
  | none => w.warn s!"{placementName true placement}: entity {e.index} has no transform"
  | some t => match t.parent with
    | none => w.place e placement
    | some parent =>
      let (placement, w) := w.inParentSpace parent placement
      w.place e placement

/-- Moves an entity by an offset. -/
def translate (w : World K B) (e : EntityId) (offset : Vec3 K) (space : Space) : World K B :=
  match space with
  | .own => match w.transform? e with
    | some t => w.place e (.position (t.position + t.rotation.rotate offset))
    | none => w
  | .world => match w.worldPosition e with
    | (some position, w) => w.placeInWorld e (.position (position + offset))
    | (none, w) => w

/-- Turns an entity where it is. -/
def rotate (w : World K B) (e : EntityId) (rotation : Quat K) (space : Space) : World K B :=
  match space with
  | .own => match w.transform? e with
    | some t => w.place e (.rotation (t.rotation * rotation))
    | none => w
  | .world => match w.worldRotation? e with
    | some current => w.placeInWorld e (.rotation (rotation * current))
    | none => w

/-- Turns an entity around a point of the world. -/
def rotateAround (w : World K B) (e : EntityId) (point : Vec3 K) (rotation : Quat K) :
    World K B :=
  match w.worldPosition e with
  | (none, w) => w
  | (some position, w) =>
    (w.placeInWorld e (.position (point + rotation.rotate (position - point)))).rotate e rotation
      .world

/-- The rectangle around the corners of an entity's rectangle in the world. -/
def worldRect (w : World K B) (e : EntityId) : Option (Rect K) × World K B :=
  match w.rect? e with
  | none => (none, w)
  | some rect => match w.localToWorldPoint e (rect.low.lift 0) with
    | (none, w) => (none, w)
    | (some low, w) => match w.localToWorldPoint e (rect.high.lift 0) with
      | (none, w) => (none, w)
      | (some high, w) => (some (.ofCorners low.flat high.flat), w)

/-- Whether a point of the world is in the rectangle of an entity. -/
def rectContains (w : World K B) (e : EntityId) (point : Vec2 K) : Bool × World K B :=
  let (rect, w) := w.worldRect e
  ((rect.map fun r => r.contains point).getD false, w)

end SheepScene.World
