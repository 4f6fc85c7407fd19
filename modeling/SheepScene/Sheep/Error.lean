import SheepScene.Sheep.Value
import SheepScene.Text.Columns

/-!
# What can go wrong in a script

`ScriptError` names the causes for which a script cannot be assembled, listed or run further, and
`ScriptError.message` gives the sentence that is logged. Running over either end of the operand
stack is no such error: it is a `Fault`, which ends the whole run and not just a thread.
-/

set_option autoImplicit false

namespace SheepScene

/-- Why a script fails; positions are byte offsets into its code. -/
inductive ScriptError where
  | unknownOpcode (pc : Nat) (opcode : UInt8)
  | truncatedInstruction (pc : Nat)
  | invalidJump (pc : Nat) (target : UInt32)
  | unknownFunction (name : String)
  | unknownHostFunction (name : String)
  | badImport (pc : Nat) (index : UInt32)
  | argumentCount (name : String) (expected : Nat) (actual : Int32)
  | typeMismatch (pc : Nat) (operation : String) (found : Kind)
  | divideByZero (pc : Nat)
  | badVariable (pc : Nat) (index : UInt32)
  | badStringOffset (pc : Nat) (offset : UInt32)
  | unboundLabel (label : Nat)
  | budgetExceeded (function : String) (budget : UInt32)
  /-- A host function refused its arguments. -/
  | host (name : String) (reason : String)
  deriving DecidableEq

namespace ScriptError

open Text in
/-- The sentence that reports an error. -/
def message : ScriptError → String
  | .unknownOpcode pc opcode => s!"unknown opcode {byte opcode.toNat} at {address pc}"
  | .truncatedInstruction pc => s!"instruction at {address pc} runs past the end of the bytecode"
  | .invalidJump pc target =>
    s!"jump at {address pc} targets {address target.toNat}, outside the bytecode"
  | .unknownFunction name => s!"no function named '{name}'"
  | .unknownHostFunction name => s!"no system function named '{name}'"
  | .badImport pc index => s!"call at {address pc} uses missing import #{index.toNat}"
  | .argumentCount name expected actual =>
    s!"'{name}' takes {expected} argument(s), called with {actual.toInt}"
  | .typeMismatch pc operation found =>
    s!"{operation} at {address pc} cannot take a {found.name} operand"
  | .divideByZero pc => s!"integer division by zero at {address pc}"
  | .badVariable pc index => s!"variable #{index.toNat} at {address pc} does not exist"
  | .badStringOffset pc offset =>
    s!"string offset {offset.toNat} at {address pc} is outside the string table"
  | .unboundLabel label => s!"label #{label} was never bound"
  | .budgetExceeded function budget =>
    s!"{function} did not finish within {budget.toNat} instructions"
  | .host name reason => s!"{name} failed: {reason}"

end ScriptError

/-- What stops a run for good. -/
inductive Fault where
  /-- A value was pushed on a full stack. -/
  | overflow (capacity : Nat)
  /-- A value was popped from an empty stack. -/
  | underflow
  /-- More values were dropped than the stack held. -/
  | shortDrop (count held : Nat)
  /-- Component hooks kept setting each other off beyond the limit set for them. -/
  | endlessHooks
  deriving DecidableEq, Repr

/-- The sentence that reports a fault. -/
def Fault.message : Fault → String
  | .overflow capacity => s!"Sheep stack overflow: capacity {capacity} exceeded"
  | .underflow => "Sheep stack underflow: pop on empty stack"
  | .shortDrop count held =>
    s!"Sheep stack underflow: discarding {count} values with {held} on the stack"
  | .endlessHooks => "component hooks do not come to rest"

end SheepScene
