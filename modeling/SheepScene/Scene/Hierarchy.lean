import SheepScene.Scene.World

/-!
# The transform tree

Parents and children are linked in both directions. Every walk is bounded by the number of entities
there have ever been, which no path in a tree can exceed. Changing a place or a link makes the
matrices below it unknown again.
-/

set_option autoImplicit false

namespace SheepScene.World

variable {K B : Type}

/-- The path from an entity to the root, the entity first, on at most `steps` links. It ends at
the first entity without a place. -/
def lineageFrom (w : World K B) (steps : Nat) (e : EntityId) : List EntityId :=
  match steps with
  | 0 => [e]
  | steps + 1 => match w.parent? e with
    | some parent => e :: w.lineageFrom steps parent
    | none => [e]

/-- The path from an entity to the root, the entity first. -/
def lineage (w : World K B) (e : EntityId) : List EntityId :=
  w.lineageFrom w.entities.size e

/-- The entities above an entity, the parent first. -/
def ancestors (w : World K B) (e : EntityId) : List EntityId :=
  (w.lineage e).drop 1

/-- Whether an entity is above another one. -/
def isAncestor (w : World K B) (ancestor e : EntityId) : Bool :=
  (w.ancestors e).contains ancestor

/-- An entity and everything below it, at most `depth` levels down. -/
def subtreeFrom (w : World K B) (depth : Nat) (e : EntityId) : List EntityId :=
  match depth with
  | 0 => [e]
  | depth + 1 => e :: (w.children e).flatMap (w.subtreeFrom depth)

/-- An entity and everything below it. -/
def subtree (w : World K B) (e : EntityId) : List EntityId :=
  w.subtreeFrom w.entities.size e

/-- Forgets the matrices of an entity and of everything below it. -/
def invalidate (w : World K B) (e : EntityId) : World K B :=
  (w.subtree e).foldl (fun w e => w.modifyTransform e Transform.invalidated) w

/-- Why an entity cannot be put under a parent, if it cannot. -/
def parentRefusal (w : World K B) (e : EntityId) (parent : Option EntityId) : Option String :=
  if (w.transform? e).isNone then
    some s!"set_parent: entity {e.index} has no transform"
  else match parent with
    | none => none
    | some p =>
      if (w.transform? p).isNone then
        some s!"set_parent: parent {p.index} has no transform"
      else if p = e || w.isAncestor e p then
        some s!"set_parent: refusing to parent {e.index} under its own descendant {p.index}"
      else none

/-- Takes an entity out of the children of another one. -/
def unlinkChild (w : World K B) (parent child : EntityId) : World K B :=
  w.modifyTransform parent fun t => { t with children := t.children.filter (· != child) }

/-- Takes an entity out of the children of its parent. -/
def leave (w : World K B) (e : EntityId) : World K B :=
  match w.parent? e with
  | some parent => w.unlinkChild parent e
  | none => w

/-- Sets the parent of an entity, on its own side. -/
def linkUp (w : World K B) (e : EntityId) (parent : Option EntityId) : World K B :=
  w.modifyTransform e fun t => { t with parent }

/-- Puts an entity behind the children of a parent. -/
def join (w : World K B) (e : EntityId) (parent : Option EntityId) : World K B :=
  match parent with
  | some p => w.modifyTransform p fun t => { t with children := t.children ++ [e] }
  | none => w

/-- Puts an entity under a parent, as the last of its children, or under none; the answer tells
whether that was possible. Where it is not, nothing changes. -/
def setParent (w : World K B) (e : EntityId) (parent : Option EntityId) : Bool × World K B :=
  match w.parentRefusal e parent with
  | some reason => (false, w.warn reason)
  | none => (true, (((w.leave e).linkUp e parent).join e parent).invalidate e)

/-- Takes an entity from under its parent, if that is the one named. -/
def removeChild (w : World K B) (parent child : EntityId) : World K B :=
  if w.parent? child = some parent then (w.setParent child none).2 else w

/-- Makes an entity a root, on its own side. -/
def orphan (w : World K B) (e : EntityId) : World K B :=
  (w.linkUp e none).invalidate e

/-- Cuts the links of an entity, but for those that its children have to it. -/
def cut (w : World K B) (e : EntityId) : World K B :=
  (w.leave e).modifyTransform e fun t => { t with parent := none, children := [] }

/-- Cuts all links of an entity; its children become roots. -/
def detach (w : World K B) (e : EntityId) : World K B :=
  (w.children e).foldl orphan (w.cut e)

end SheepScene.World
