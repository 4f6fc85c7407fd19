import SheepScene.Number.Reading
import SheepScene.Settings.Basic
import SheepScene.Settings.Ini

/-!
# Settings in files

Which keys of a settings file stand for which setting. A value that is missing or cannot be read
leaves the setting as it was.
-/

set_option autoImplicit false

namespace SheepScene.Settings

/-- An unsigned number in a settings file. -/
def word? (ini : Ini) (sectionName key : String) : Option UInt64 :=
  (ini.value? sectionName key).bind Numeral.freeWord?

/-- A truth value in a settings file, in any case. -/
def bool? (ini : Ini) (sectionName key : String) : Option Bool :=
  (ini.value? sectionName key).bind fun s =>
    match String.ofList (s.toList.map Char.toLower) with
    | "true" => some true
    | "false" => some false
    | _ => none

/-- A float in a settings file, read with 64 bits first. -/
def float? (ini : Ini) (sectionName key : String) : Option Float32 :=
  (ini.value? sectionName key).bind (Numeral.freeFloat? fun n => Binary32.ofDouble n.toDouble)

/-- The settings with what a settings file says. Numbers lose what is beyond 32 bits, and a budget
of zero counts as one. -/
def updated (s : Settings) (ini : Ini) : Settings where
  viewportWidth := ((word? ini "viewport" "width").map (·.toUInt32)).getD s.viewportWidth
  viewportHeight := ((word? ini "viewport" "height").map (·.toUInt32)).getD s.viewportHeight
  pixelPerfect := (bool? ini "ui" "pixel_perfect").getD s.pixelPerfect
  timeScale := (float? ini "time" "time_scale").getD s.timeScale
  instructionBudget :=
    ((word? ini "sheep" "instruction_budget").map fun n => (max n 1).toUInt32).getD
      s.instructionBudget

/-- The settings with what a text says, if it is a settings file. -/
def load (s : Settings) (text : String) : Except IniError Settings :=
  (Ini.read text).map s.updated

/-- All settings as a settings file. -/
def toIni (s : Settings) : Ini :=
  [⟨"viewport", "width", some (toString s.viewportWidth.toNat)⟩,
    ⟨"viewport", "height", some (toString s.viewportHeight.toNat)⟩,
    ⟨"ui", "pixel_perfect", some (if s.pixelPerfect then "true" else "false")⟩,
    ⟨"time", "time_scale", some (FloatLayout.plain.write s.timeScale)⟩,
    ⟨"sheep", "instruction_budget", some (toString s.instructionBudget.toNat)⟩]

/-- The text of a settings file with all settings. -/
def save (s : Settings) : String :=
  s.toIni.write

/-- The message that sums up settings that have been loaded. -/
def summary (s : Settings) : String :=
  let size := s!"{s.viewportWidth.toNat}x{s.viewportHeight.toNat}"
  let scale := FloatLayout.plain.write s.timeScale
  s!"{size} viewport, pixel_perfect={s.pixelPerfect}, time_scale={scale}, sheep budget={s.instructionBudget.toNat}"

end SheepScene.Settings
