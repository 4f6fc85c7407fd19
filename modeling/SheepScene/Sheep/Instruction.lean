import SheepScene.Sheep.Error

/-!
# Instructions

The instructions of the stack machine and their mnemonics. Operators come in two flavours, for
integers and for floats; loads, stores and calls come in one per kind of value.
-/

set_option autoImplicit false

namespace SheepScene

/-- The flavour of a numeric operator. -/
inductive Numeric where
  | int
  | float
  deriving DecidableEq, Repr

/-- The operators that take two operands and exist in both flavours. -/
inductive BinaryOp where
  | add
  | subtract
  | multiply
  | divide
  | isEqual
  | notEqual
  | isGreater
  | isLess
  | isGreaterEqual
  | isLessEqual
  deriving DecidableEq, Repr

namespace BinaryOp

/-- Whether the answer is a truth value. -/
def isComparison : BinaryOp → Bool
  | .add | .subtract | .multiply | .divide => false
  | _ => true

/-- The name of an operator, without its flavour. -/
def name : BinaryOp → String
  | .add => "Add"
  | .subtract => "Subtract"
  | .multiply => "Multiply"
  | .divide => "Divide"
  | .isEqual => "IsEqual"
  | .notEqual => "NotEqual"
  | .isGreater => "IsGreater"
  | .isLess => "IsLess"
  | .isGreaterEqual => "IsGreaterEqual"
  | .isLessEqual => "IsLessEqual"

end BinaryOp

/-- One instruction with its operand. -/
inductive Instruction where
  | sitnSpin
  | yield
  /-- Calls an import; `none` for a call that leaves no answer. -/
  | callSysFunction (result : Option Kind) (importIndex : UInt32)
  | branch (target : UInt32)
  | branchGoto (target : UInt32)
  | branchIfZero (target : UInt32)
  | beginWait
  | endWait
  | returnV
  | store (kind : Kind) (index : UInt32)
  | load (kind : Kind) (index : UInt32)
  | pushI (n : Int32)
  /-- Pushes a float given by its bits, so that the code keeps every pattern as it is. -/
  | pushF (bits : UInt32)
  | pushS (offset : UInt32)
  | pop (count : UInt32)
  | binary (op : BinaryOp) (flavour : Numeric)
  | negate (flavour : Numeric)
  | iToF
  | fToI
  | modulo
  | and
  | or
  | not
  | getString
  | debugBreakpoint
  deriving DecidableEq, Repr

/-- The letter that marks a kind in a mnemonic. -/
def Kind.letter : Kind → String
  | .int => "I"
  | .float => "F"
  | .string => "S"

/-- The letter that marks a flavour in a mnemonic. -/
def Numeric.letter : Numeric → String
  | .int => "I"
  | .float => "F"

namespace Instruction

/-- The name of an instruction in listings. -/
def mnemonic : Instruction → String
  | .sitnSpin => "SitnSpin"
  | .yield => "Yield"
  | .callSysFunction none _ => "CallSysFunctionV"
  | .callSysFunction (some kind) _ => "CallSysFunction" ++ kind.letter
  | .branch _ => "Branch"
  | .branchGoto _ => "BranchGoto"
  | .branchIfZero _ => "BranchIfZero"
  | .beginWait => "BeginWait"
  | .endWait => "EndWait"
  | .returnV => "ReturnV"
  | .store kind _ => "Store" ++ kind.letter
  | .load kind _ => "Load" ++ kind.letter
  | .pushI _ => "PushI"
  | .pushF _ => "PushF"
  | .pushS _ => "PushS"
  | .pop _ => "Pop"
  | .binary op flavour => op.name ++ flavour.letter
  | .negate flavour => "Negate" ++ flavour.letter
  | .iToF => "IToF"
  | .fToI => "FToI"
  | .modulo => "Modulo"
  | .and => "And"
  | .or => "Or"
  | .not => "Not"
  | .getString => "GetString"
  | .debugBreakpoint => "DebugBreakpoint"

/-- Where a jump goes. -/
def target? : Instruction → Option UInt32
  | .branch target | .branchGoto target | .branchIfZero target => some target
  | _ => none

/-- How the operand of an instruction is shown: jump targets as addresses, numbers in decimal. -/
def operandText? : Instruction → Option String
  | .branch target | .branchGoto target | .branchIfZero target => some (Text.address target.toNat)
  | .callSysFunction _ n | .store _ n | .load _ n | .pushS n | .pop n => some (toString n.toNat)
  | .pushI n => some (toString n.toInt)
  | .pushF bits => some (FloatLayout.plain.write (Float32.ofBits bits))
  | _ => none

/-- The mnemonic and the operand, if there is one. -/
def text (i : Instruction) : String :=
  match i.operandText? with
  | some operand => i.mnemonic ++ " " ++ operand
  | none => i.mnemonic

end Instruction

end SheepScene
