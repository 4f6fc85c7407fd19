import SheepScene.Number.Reading

/-!
# Arguments

The command line has options of its own, then the name of a command, then options and operands of
that command. Options are written `--name value` or `--name=value`; after `--` there are operands
only. The first argument that asks for help, or that is refused, decides.
-/

set_option autoImplicit false

namespace SheepScene.CommandLine

/-- What help can be asked about. -/
inductive Topic where
  | program
  | run
  | disasm
  | help
  deriving DecidableEq, Repr

/-- What a command line asks for. -/
inductive Command where
  /-- Runs a function of a script in the demo scene. -/
  | run (config script function : String) (frames : UInt32) (dt : Float32)
  /-- Prints the listing of a script. -/
  | disasm (script : String)
  | help (topic : Topic)
  | version

/-- Why a command line is refused. -/
inductive UsageError where
  | unexpected (argument : String)
  | missingValue (option : String)
  | badValue (option value : String)
  | repeated (option : String)
  | missingOperand (name : String)
  | emptyOperand
  | unknownCommand (name : String)
  | missingCommand
  deriving DecidableEq, Repr

/-- The sentence that reports a refused command line. -/
def UsageError.message : UsageError → String
  | .unexpected argument => s!"error: unexpected argument '{argument}' found"
  | .missingValue option => s!"error: a value is required for '--{option}' but none was supplied"
  | .badValue option value => s!"error: invalid value '{value}' for '--{option}'"
  | .repeated option => s!"error: the argument '--{option}' cannot be used multiple times"
  | .missingOperand name =>
    s!"error: the following required arguments were not provided:\n  <{name}>"
  | .emptyOperand => "error: a value is required but none was supplied"
  | .unknownCommand name => s!"error: unrecognized subcommand '{name}'"
  | .missingCommand => "error: a subcommand is required but none was provided"

/-- What ends the reading of a command line before its end. -/
inductive Interruption where
  | help
  | version
  | refused (e : UsageError)

/-- An argument by its looks. -/
inductive Argument where
  /-- All arguments after this one are operands. -/
  | escape
  | long (name : String) (value : Option String)
  /-- Flags of one letter, of which the first is looked at. -/
  | short (letter : Char)
  | plain (text : String)

/-- What an argument looks like. A single dash is an operand. -/
def Argument.read (s : String) : Argument :=
  match s.toList with
  | ['-', '-'] => .escape
  | '-' :: '-' :: rest =>
    let name := String.ofList (rest.takeWhile (· != '='))
    match rest.dropWhile (· != '=') with
    | [] => .long name none
    | _ :: value => .long name (some (String.ofList value))
  | '-' :: c :: _ => .short c
  | _ => .plain s

/-- What the arguments of the program or of a command may be. -/
structure Grammar where
  /-- The options, each with the values that it takes. -/
  options : List (String × (String → Bool))
  /-- How many operands there may be. -/
  operands : Nat
  /-- Whether reading stops at the first operand, which names a command. -/
  command : Bool
  /-- Whether the version can be asked for. -/
  versioned : Bool

/-- The options and operands read so far. -/
structure Scanned where
  options : List (String × String)
  operands : List String
  /-- The option read last, where its value was an argument apart. It is judged when the next
  argument of the same grammar is read, or at the end. -/
  waiting : Option (String × String)

namespace Scanned

/-- Nothing. -/
def none : Scanned :=
  ⟨[], [], .none⟩

/-- The value of an option. -/
def value? (s : Scanned) (option : String) : Option String :=
  s.options.lookup option

/-- Adds an option. An option is taken once. -/
def addOption (s : Scanned) (g : Grammar) (option value : String) : Except UsageError Scanned :=
  if (s.value? option).isSome then .error (.repeated option)
  else match g.options.lookup option with
    | some accepts =>
      if accepts value then .ok { s with options := (option, value) :: s.options }
      else .error (.badValue option value)
    | .none => .error (.unexpected s!"--{option}")

/-- Judges the option that waits for it. -/
def settle (s : Scanned) (g : Grammar) : Except UsageError Scanned :=
  match s.waiting with
  | some (option, value) => { s with waiting := .none }.addOption g option value
  | .none => .ok s

/-- Adds an operand. -/
def addOperand (s : Scanned) (g : Grammar) (text : String) : Except UsageError Scanned :=
  if g.operands ≤ s.operands.length then .error (.unexpected text)
  else if text.isEmpty then .error .emptyOperand
  else .ok { s with operands := s.operands ++ [text] }

end Scanned

/-- What a flag of one letter asks for: help, or the version where there is one. -/
def shortFlag (g : Grammar) (letter : Char) (shown : String) : Interruption :=
  if letter = 'h' then .help
  else if g.versioned ∧ letter = 'V' then .version
  else .refused (.unexpected shown)

/-- What a flag with a name asks for: help, or the version where there is one. -/
def longFlag (g : Grammar) (name : String) (shown : String) : Interruption :=
  if name = "help" then .help
  else if g.versioned ∧ name = "version" then .version
  else .refused (.unexpected shown)

/-- Reads arguments, and leaves those from the name of a command on. The option that is read last
may still wait to be judged then. -/
def scan (g : Grammar) (s : Scanned) : List String → Except Interruption (Scanned × List String)
  | [] => .ok (s, [])
  | argument :: rest =>
    let settled := (s.settle g).mapError .refused
    match Argument.read argument with
    | .escape => do
      let operands := rest.foldlM (fun s text => s.addOperand g text) (← settled)
      return (← operands.mapError .refused, [])
    | .short letter => do
      let _ ← settled
      .error (shortFlag g letter argument)
    | .plain text =>
      if g.command then .ok (s, argument :: rest)
      else do scan g (← ((← settled).addOperand g text).mapError .refused) rest
    | .long name value =>
      if (g.options.lookup name).isNone then do
        let _ ← settled
        match value with
        | none => .error (longFlag g name argument)
        | some _ => .error (.refused (.unexpected argument))
      else match value, rest with
        | some value, rest => do
          scan g (← ((← settled).addOption g name value).mapError .refused) rest
        | none, [] => .error (.refused (.missingValue name))
        | none, value :: rest => match Argument.read value with
          | .plain value => do scan g { ← settled with waiting := some (name, value) } rest
          | _ => .error (.refused (.missingValue name))

/-- A number of frames. -/
def frames? (s : String) : Option UInt32 :=
  (Numeral.freeInt? s).bind fun n =>
    if 0 ≤ n ∧ n < UInt32.size then some (UInt32.ofNat n.toNat) else none

/-- A number of seconds. -/
def seconds? (s : String) : Option Float32 :=
  Numeral.freeFloat? Numeral.toSingle s

/-- The arguments of the program. -/
def program : Grammar where
  options := [("config", fun s => !s.isEmpty)]
  operands := 0
  command := true
  versioned := true

/-- The arguments of the command that runs a script. -/
def runGrammar : Grammar where
  options :=
    [("function", fun _ => true), ("frames", fun s => (frames? s).isSome),
      ("dt", fun s => (seconds? s).isSome)]
  operands := 1
  command := false
  versioned := false

/-- The arguments of the command that lists a script. -/
def disasmGrammar : Grammar where
  options := []
  operands := 1
  command := false
  versioned := false

/-- The settings file where none is named. -/
def defaultConfig : String := "./config.ini"

/-- The frames after which a run is stopped, where nothing is said. -/
def defaultFrames : UInt32 := 600

/-- The length of a frame where nothing is said: sixty in a second. -/
def defaultDelta : Float32 := 1 / 60

/-- Asks for help about a topic, or reports why the arguments are refused. -/
def interrupted (topic : Topic) : Interruption → Except UsageError Command
  | .help => .ok (.help topic)
  | .version => .ok .version
  | .refused e => .error e

/-- Reads the arguments of a command with a script as its operand. -/
def withScript (g : Grammar) (topic : Topic) (arguments : List String)
    (command : Scanned → String → Except UsageError Command) : Except UsageError Command :=
  match scan g .none arguments with
  | .error i => interrupted topic i
  | .ok (s, _) => do
    let s ← s.settle g
    match s.operands with
    | script :: _ => command s script
    | [] => .error (.missingOperand "SCRIPT")

/-- What help is asked about. -/
def helpTopic : List String → Except UsageError Topic
  | [] => .ok .program
  | ["run"] => .ok .run
  | ["disasm"] => .ok .disasm
  | ["help"] => .ok .help
  | name :: rest =>
    if ["run", "disasm", "help"].contains name then .error (.unknownCommand (rest.headD ""))
    else .error (.unknownCommand name)

/-- Reads a command line. An option of the program that waits when the command is named is judged
after the arguments of the command, so that help about it comes first. -/
def Command.ofArguments (arguments : List String) : Except UsageError Command :=
  match scan program .none arguments with
  | .error i => interrupted .program i
  | .ok (_, []) => .error .missingCommand
  | .ok (s, name :: rest) => match name with
    | "run" => withScript runGrammar .run rest fun own script => do
      let s ← s.settle program
      return .run ((s.value? "config").getD defaultConfig) script
        ((own.value? "function").getD "main")
        (((own.value? "frames").bind frames?).getD defaultFrames)
        (((own.value? "dt").bind seconds?).getD defaultDelta)
    | "disasm" => withScript disasmGrammar .disasm rest fun _ script => do
      let _ ← s.settle program
      return .disasm script
    | "help" => (helpTopic rest).map .help
    | name => .error (.unknownCommand name)

end SheepScene.CommandLine
