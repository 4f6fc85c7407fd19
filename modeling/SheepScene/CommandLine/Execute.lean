import SheepScene.CommandLine.Demo
import SheepScene.CommandLine.Help
import SheepScene.Settings.File
import SheepScene.Sheep.Listing
import SheepScene.Sheep.ScriptFile

/-!
# Carrying out a command

What the program prints and logs, and the code with which it ends, as a function of its arguments
and of the files that it may read.
-/

set_option autoImplicit false

namespace SheepScene.CommandLine

/-- Why a file cannot be read. -/
inductive FileError where
  | missing
  | notDirectory
  | directory
  | other (reason : String)
  deriving DecidableEq, Repr

/-- The phrase that reports why a file cannot be read. -/
def FileError.message : FileError → String
  | .missing => "No such file or directory (os error 2)"
  | .notDirectory => "Not a directory (os error 20)"
  | .directory => "Is a directory (os error 21)"
  | .other reason => reason

/-- The contents of files by their paths. -/
abbrev Files : Type :=
  String → Except FileError String

/-- What a run of the program comes to. -/
structure Outcome where
  /-- Zero after success, one after a failure, two where the command line is refused. -/
  code : UInt32
  output : String
  log : List (Level × String)
  /-- What is said beside the log: why the command line is refused, or the fault that ended it. -/
  complaint : Option String

namespace Outcome

/-- Nothing but output. -/
def success (output : String) : Outcome :=
  { code := 0, output, log := [], complaint := none }

/-- A log that ends in an error. -/
def failure (log : List (Level × String)) (message : String) : Outcome :=
  { code := 1, output := "", log := log ++ [(.error, message)], complaint := none }

end Outcome

/-- The paths of the files that a command reads. -/
def Command.paths : Command → List String
  | .run config script .. => [config, script]
  | .disasm script => [script]
  | .help _ | .version => []

/-- Reads a script, or says why that is not possible. -/
def loadScript (files : Files) (path : String) : Except String Script :=
  match files path with
  | .error e => .error s!"Failed to read {path}: {e.message}"
  | .ok text => match Script.load? text with
    | some script => .ok script
    | none => .error "Invalid script JSON: the text is not a script"

/-- Reads settings, with what is logged about it. -/
def loadSettings (files : Files) (path : String) : Settings × List (Level × String) :=
  let failed := fun (reason : String) =>
    (Settings.default, [(Level.warn, s!"Failed to load config file: {reason}; using defaults")])
  match files path with
  | .error e => failed e.message
  | .ok text => match Settings.default.load text with
    | .error e => failed e.message
    | .ok settings => (settings, [(.info, s!"Loaded config: {settings.summary}")])

/-- The messages in a journal. -/
def messages {K B : Type} (w : World K B) : List (Level × String) :=
  w.journal.toList.filterMap fun
    | .scriptLog level text => some (level, text)
    | .sceneLog level text => some (level, text)
    | _ => none

/-- Runs a script in the demo scene. -/
def runScript (files : Files) (config script function : String) (frames : UInt32)
    (dt : Float32) : Outcome :=
  let (settings, loading) := loadSettings files config
  match loadScript files script with
  | .error message => .failure loading message
  | .ok script =>
    let scene : World Float32 Empty :=
      { World.ofSettings settings with scheduler := some (.ofSettings settings) }
    match (Demo.run script function frames dt).run scene with
    | .ok (.ok ()) w => { Outcome.success "" with log := loading ++ messages w }
    | .ok (.error e) w => .failure (loading ++ messages w) e.message
    | .error fault w =>
      { code := 101
        output := ""
        log := loading ++ messages w
        complaint := some fault.message }

/-- Lists a script. -/
def listScript (files : Files) (path : String) : Outcome :=
  match loadScript files path with
  | .error message => .failure [] message
  | .ok script => match script.listing with
    | .ok listing => .success listing
    | .error e => .failure [] e.message

/-- Carries out a command. -/
def Command.execute (programName : String) (files : Files) : Command → Outcome
  | .run config script function frames dt => runScript files config script function frames dt
  | .disasm script => listScript files script
  | .help topic => .success (helpText programName topic)
  | .version => .success s!"{programName} {CommandLine.version}\n"

/-- What becomes of a refused command line. -/
def refused (e : UsageError) : Outcome :=
  { code := 2, output := "", log := [], complaint := some e.message }

end SheepScene.CommandLine
