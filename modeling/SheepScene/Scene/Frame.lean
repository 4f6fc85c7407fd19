import SheepScene.Scene.HostFunctions
import SheepScene.Scene.Perform

/-!
# Frames

A scene is set up from settings and then goes on frame by frame: the clock ticks, commands from
outside are carried out, threads run, all actors are updated twice, and the actors that are flagged
for removal go. Threads are started and functions evaluated between frames.
-/

set_option autoImplicit false

namespace SheepScene

variable {B : Type}

namespace World

/-- A scene without actors, with everything that a scene can have except a scheduler. -/
def ofSettings (settings : Settings) : World Float32 B :=
  let w : World Float32 B :=
    { (bare : World Float32 B) with
      roster := some []
      clock := some (.start settings.timeScale)
      viewport := some {
        width := settings.viewportWidth.toInt32
        height := settings.viewportHeight.toInt32 }
      commands := some []
      listener := some .unowned
      settings := some settings }
  let size := s!"{settings.viewportWidth.toNat}x{settings.viewportHeight.toNat}"
  let scale := FloatLayout.plain.write settings.timeScale
  w.record (.sceneLog .info s!"Scene created: viewport {size}, time scale {scale}")

end World

namespace Scheduler

/-- A scheduler with the functions that every scene offers and the budget of the settings. -/
def ofSettings (settings : Settings) : Scheduler (HostBody Float32 B) :=
  (ofTable HostFunctions.table).withBudget settings.instructionBudget

end Scheduler

namespace SceneM

variable {K : Type} [Scalar K] [Behavior K B]

/-- Goes on by one frame of `dt`. -/
def frame (dt : K) : SceneM K B Unit := do
  let () ← perform (.edit (.tick dt))
  let () ← perform .applyCommands
  let () ← perform .runThreads
  let () ← perform .updateActors
  let () ← perform .lateUpdateActors
  perform .sweep

/-- Goes on by a number of frames. -/
def frames (dt : K) : Nat → SceneM K B Unit
  | 0 => pure ()
  | n + 1 => do frame dt; frames dt n

/-- Starts a function as a thread; `none` without a scheduler. -/
def startThread (script : Script) (function : String) :
    SceneM K B (Option (Except ScriptError UInt32)) :=
  withScheduler none fun scheduler => do
    let (id, scheduler) ← scheduler.start (host (respond hookLimit)) script function
    return (some id, scheduler)

/-- The value of a function that is run to its end at once; `none` without a scheduler. -/
def evaluate (script : Script) (function : String) :
    SceneM K B (Option (Except ScriptError Value)) :=
  withScheduler none fun scheduler => do
    let value ← scheduler.evaluate (host (respond hookLimit)) script function
    return (some value, scheduler)

end SceneM

end SheepScene
