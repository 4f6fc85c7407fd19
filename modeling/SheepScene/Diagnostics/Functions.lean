import SheepScene.Scene.HostFunctions

/-!
# Diagnostic host functions

Functions that tell how arguments and answers pass between scripts and their host: they give back
what they get, fail on demand, or answer with something to wait for.
-/

set_option autoImplicit false

namespace SheepScene.DiagnosticFunctions

open HostFunctions (function Steps int text)

variable {B : Type}

/-- Gives the first argument back. -/
def identity (args : List Value) : Steps B Reply :=
  return match args with
    | v :: _ => .ofValue v
    | [] => .void

/-- The arguments as they are shown, which is also noted in the journal. -/
def showArguments (args : List Value) : Steps B Reply := do
  let shown := String.intercalate "|" (args.map Value.text)
  let () ← Program.edit (.note s!"args:{shown}")
  return .ofValue (.string shown)

/-- The handle of a number to wait for, without a value. -/
def waitFor (args : List Value) : Steps B Reply := do
  return .waiting (← Program.edit (.nameWait (int args 0).toInt))

/-- Fails with the message that is its argument. -/
def failure : HostFunction (HostBody Float32 B) where
  name := "TestFail"
  args := [.string]
  result := none
  body := fun args => return .error (.host "TestFail" (text args 0))

/-- All diagnostic functions. -/
def all : List (HostFunction (HostBody Float32 B)) :=
  [function "TestInt" [.int] (some .int) identity,
    function "TestFloat" [.float] (some .float) identity,
    function "TestString" [.string] (some .string) identity,
    function "TestVoid" [] none fun _ => return .void,
    function "TestOffset" [.int] (some .string) fun args =>
      return .ofValue (.offset (int args 0).toUInt32),
    function "TestArgs" [.int, .float, .string] (some .string) showArguments,
    failure,
    function "TestWait" [.int] none waitFor]

/-- The functions of every scene together with the diagnostic ones. -/
def table : HostTable (HostBody Float32 B) :=
  .ofList (HostFunctions.all ++ all)

end SheepScene.DiagnosticFunctions
