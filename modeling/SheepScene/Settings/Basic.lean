import SheepScene.Machine.Scheduler

/-!
# Settings

What can be set about a scene before it starts.
-/

set_option autoImplicit false

namespace SheepScene

/-- The settings of a scene. -/
structure Settings where
  viewportWidth : UInt32
  viewportHeight : UInt32
  /-- Whether every rectangle is placed on whole units. -/
  pixelPerfect : Bool
  timeScale : Float32
  instructionBudget : UInt32

/-- The settings where nothing is said. -/
def Settings.default : Settings where
  viewportWidth := 1024
  viewportHeight := 768
  pixelPerfect := false
  timeScale := 1
  instructionBudget := Scheduler.defaultBudget

end SheepScene
