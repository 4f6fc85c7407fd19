import SheepScene.Scene.Components

/-!
# Movers and listeners

What the two built-in components do. A mover takes its actor from where it stands when the move
begins to a target in the world, and is over when the time is; being disabled ends a move at its
target at once. A listener publishes where its actor is at the end of each update, and withdraws
when it is disabled.
-/

set_option autoImplicit false

namespace SheepScene

variable {K B : Type} [Scalar K]

/-- The part of the way that is covered after the part `t` of the time. -/
def Easing.ease (easing : Easing) (t : K) : K :=
  let t := Scalar.clamp01 t
  match easing with
  | .linear => t
  | .quadIn => t * t
  | .quadOut => t * (2 - t)
  | .quadInOut => if Scalar.lt t (1 / 2) then 2 * t * t else -1 + (4 - 2 * t) * t

namespace Mover

/-- A move that has not begun. -/
def start (target : Vec3 K) (duration : K) (easing : Easing) (done : Option WaitHandle) :
    Mover K :=
  { origin := none, target, duration, elapsed := 0, easing, finished := false, done }

/-- The part of the time that has passed. A move without duration is over as soon as it begins. -/
def progress (m : Mover K) : K :=
  if Scalar.le m.duration 0 then
    if m.origin.isSome then 1 else 0
  else Scalar.clamp01 (m.elapsed / m.duration)

/-- Lets go of whoever waits for the move. -/
def release (m : Mover K) : Program K B Unit :=
  match m.done with
  | some handle => Program.edit (.completeWait handle)
  | none => pure ()

/-- The move is over. -/
def finish (m : Mover K) : Program K B (Mover K) := do
  m.release
  return { m with finished := true, done := none }

/-- Enabling a mover whose move is over starts the move again. -/
def onEnable (m : Mover K) : Program K B (Mover K) := do
  if m.finished then
    m.release
    return m.retargeted m.target m.duration none
  else return m

/-- Disabling a mover puts its actor at the target. -/
def onDisable (m : Mover K) (e : EntityId) : Program K B (Mover K) := do
  if m.finished then return m
  let () ← Program.edit (.placeInWorld e (.position m.target))
  m.finish

/-- A mover moves its actor, and disables the first mover of the actor when it arrives. -/
def onUpdate (m : Mover K) (e : EntityId) (dt : K) : Program K B (Mover K) := do
  if m.finished then return m
  match ← Program.edit (.worldPosition e) with
  | none => return m
  | some start =>
    let origin := m.origin.getD start
    let m := { m with origin := some origin, elapsed := m.elapsed + dt }
    let t := m.progress
    let () ← Program.edit (.placeInWorld e (.position (origin.lerp m.target (m.easing.ease t))))
    if Scalar.le (1 : K) t then
      let m ← m.finish
      let () ← Program.request (.setEnabled e .mover false)
      return m
    else return m

/-- What a mover does when a hook reaches it. -/
def react (m : Mover K) (e : EntityId) : Hook K → Program K B (Mover K)
  | .enable => m.onEnable
  | .disable => m.onDisable e
  | .update dt => m.onUpdate e dt
  | .lateUpdate _ => pure m

end Mover

/-- What a listener does when a hook reaches it. -/
def listenerReact (e : EntityId) : Hook K → Program K B Unit
  | .lateUpdate _ => do
    match ← Program.edit (.worldPosition e) with
    | none => return ()
    | some position => match ← Program.ask (.worldRotation e) with
      | none => return ()
      | some rotation =>
        Program.edit (.publishListener { actor := some e, position, rotation })
  | .disable => do
    match ← Program.ask .listener with
    | some pose =>
      if pose.actor = some e then Program.edit (.publishListener .unowned) else return ()
    | none => return ()
  | _ => return ()

/-- What a component does when a hook reaches it, ending in the component as it is afterwards. -/
def Component.react [Behavior K B] (c : Component K B) (e : EntityId) (hook : Hook K) :
    Program K B (Component K B) :=
  match c with
  | .mover m => do return .mover (← m.react e hook)
  | .listener => do listenerReact e hook; return .listener
  | .custom b => do return .custom (← Behavior.react b e hook)

end SheepScene
