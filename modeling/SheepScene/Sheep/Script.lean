import SheepScene.Sheep.Value
import SheepScene.Text.Case

/-!
# Scripts

A script is its code together with the tables that the code refers to by index: strings, variables
with the values they start from, entry points, and the host functions that it calls.
-/

set_option autoImplicit false

namespace SheepScene

/-- A variable and the value with which every thread starts it. -/
structure Variable where
  name : String
  initial : Value
  deriving DecidableEq

/-- The declared kind of a variable is that of its initial value. -/
def Variable.kind (v : Variable) : Kind :=
  v.initial.kind

/-- A function of a script: a name for a position in its code. -/
structure EntryPoint where
  name : String
  offset : UInt32
  deriving DecidableEq

/-- A host function as a script knows it. -/
structure Import where
  name : String
  argCount : UInt32
  deriving DecidableEq

/-- A script ready to run. -/
structure Script where
  name : String
  strings : Array String
  vars : Array Variable
  functions : Array EntryPoint
  imports : Array Import
  bytecode : Array UInt8
  deriving DecidableEq

namespace Script

/-- A script with a name and nothing in it. -/
def blank (name : String) : Script :=
  { name, strings := #[], vars := #[], functions := #[], imports := #[], bytecode := #[] }

/-- Where the first function of a name starts, in any case. -/
def functionOffset? (s : Script) (name : String) : Option UInt32 :=
  (s.functions.find? fun f => Text.sameName f.name name).map (·.offset)

/-- An entry of the string table. -/
def string? (s : Script) (offset : UInt32) : Option String :=
  s.strings[offset.toNat]?

/-- The place of the first variable of a name, in any case. -/
def variableIndex? (s : Script) (name : String) : Option Nat :=
  s.vars.findIdx? fun v => Text.sameName v.name name

end Script

end SheepScene
