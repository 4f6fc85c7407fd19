import SheepScene.CommandLine.Execute

/-!
# The program

Reads the files that a command names, carries it out, and prints what it comes to: output to the
standard output, the log and complaints to the standard error.
-/

set_option autoImplicit false

namespace SheepScene.CommandLine

/-- Reads a file. -/
def readFile (path : String) : IO (Except FileError String) := do
  try
    return .ok (← IO.FS.readFile path)
  catch
    | .noFileOrDirectory .. => return .error .missing
    | .inappropriateType .. => return .error .directory
    | e => return .error (.other (toString e))

/-- Reads the files of a command. -/
def readFiles (command : Command) : IO Files := do
  let contents ← command.paths.mapM fun path => return (path, ← readFile path)
  return fun path => (contents.lookup path).getD (.error .missing)

/-- Prints what a run comes to. -/
def Outcome.print (o : Outcome) : IO Unit := do
  IO.print o.output
  o.log.forM fun (level, text) => IO.eprintln s!"{level.name} {text}"
  if let some complaint := o.complaint then IO.eprintln complaint

end SheepScene.CommandLine

open SheepScene.CommandLine in
/-- The program. -/
def main (arguments : List String) : IO UInt32 := do
  let outcome ← match Command.ofArguments arguments with
    | .error e => pure (refused e)
    | .ok command => do
      let files ← readFiles command
      pure (command.execute "sheepscene" files)
  outcome.print
  return outcome.code
