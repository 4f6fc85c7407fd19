import SheepScene.CommandLine.Arguments
import SheepScene.Number.Layout
import SheepScene.Text.Columns

/-!
# Help

The text that explains the program or one of its commands, under the name by which it was called.
-/

set_option autoImplicit false

namespace SheepScene.CommandLine

/-- The version of the program. -/
def version : String := "0.1.0"

/-- A heading and the entries below it in two columns. -/
def helpSection (heading : String) (entries : List (String × String)) : String :=
  let width := (entries.map fun e => e.1.length).foldl max 0
  let lines := entries.map fun e => s!"  {Text.alignLeft width e.1}  {e.2}\n"
  s!"{heading}:\n" ++ String.join lines

/-- A default value behind the explanation of an option. -/
def withDefault (explanation shown : String) : String :=
  s!"{explanation} [default: {shown}]"

/-- The entry of the option that asks for help. -/
def helpFlag : String × String :=
  ("-h, --help", "Print help")

/-- An explanation, a form of use, and sections. -/
def helpPage (about usage : String) (sections : List String) : String :=
  String.intercalate "\n" (s!"{about}\n" :: s!"Usage: {usage}\n" :: sections)

/-- The help about a topic. -/
def helpText (programName : String) : Topic → String
  | .program =>
    helpPage "Scene graph and Sheep script runner" s!"{programName} [OPTIONS] <COMMAND>"
      [helpSection "Commands"
        [("run", "Run a script function against the demo scene"),
          ("disasm", "Print a bytecode listing"),
          ("help", "Print this message or the help of the given subcommand(s)")],
        helpSection "Options"
          [("    --config <PATH>", withDefault
              "Engine configuration file (INI). Defaults are used if it is missing" defaultConfig),
            helpFlag, ("-V, --version", "Print version")]]
  | .run =>
    helpPage "Run a script function against the demo scene"
      s!"{programName} run [OPTIONS] <SCRIPT>"
      [helpSection "Arguments" [("<SCRIPT>", "Compiled script (JSON)")],
        helpSection "Options"
          [("    --function <FUNCTION>", withDefault "Function to start" "main"),
            ("    --frames <FRAMES>", withDefault
              "Stop after this many frames even if threads are still running"
              (toString defaultFrames.toNat)),
            ("    --dt <DT>", withDefault "Seconds per frame"
              (FloatLayout.plain.write defaultDelta)),
            helpFlag]]
  | .disasm =>
    helpPage "Print a bytecode listing" s!"{programName} disasm <SCRIPT>"
      [helpSection "Arguments" [("<SCRIPT>", "Compiled script (JSON)")],
        helpSection "Options" [helpFlag]]
  | .help =>
    helpPage "Print this message or the help of the given subcommand(s)"
      s!"{programName} help [COMMAND]..."
      [helpSection "Arguments" [("[COMMAND]...", "Print help for the subcommand(s)")]]

end SheepScene.CommandLine
