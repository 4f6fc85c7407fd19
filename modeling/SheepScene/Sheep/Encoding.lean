import SheepScene.Sheep.Instruction

/-!
# The bytecode

An instruction is one opcode byte, followed by a four-byte little-endian operand where it takes
one. `Opcode.ofByte?` is the table of the opcodes, which decoding reads; `Instruction.opcode` and
`Instruction.word?` take an instruction apart again for encoding.
-/

set_option autoImplicit false

namespace SheepScene

/-- What an opcode byte means: an instruction that stands alone, or one that waits for the
operand word that follows it. -/
inductive Opcode where
  | plain (instruction : Instruction)
  | withWord (build : UInt32 → Instruction)

namespace BinaryOp

/-- The opcode of the integer flavour; the float flavour follows it. -/
def opcode : BinaryOp → UInt8
  | .add => 0x17
  | .subtract => 0x19
  | .multiply => 0x1B
  | .divide => 0x1D
  | .isEqual => 0x21
  | .notEqual => 0x23
  | .isGreater => 0x25
  | .isLess => 0x27
  | .isGreaterEqual => 0x29
  | .isLessEqual => 0x2B

end BinaryOp

/-- The place of a kind in a family of three opcodes. -/
def Kind.step : Kind → UInt8
  | .int => 0
  | .float => 1
  | .string => 2

/-- The place of a flavour in a family of two opcodes. -/
def Numeric.step : Numeric → UInt8
  | .int => 0
  | .float => 1

/-- The meaning of a byte that is an opcode. -/
def Opcode.ofByte? : UInt8 → Option Opcode
  | 0x00 => some (.plain .sitnSpin)
  | 0x01 => some (.plain .yield)
  | 0x02 => some (.withWord (.callSysFunction none))
  | 0x03 => some (.withWord (.callSysFunction (some .int)))
  | 0x04 => some (.withWord (.callSysFunction (some .float)))
  | 0x05 => some (.withWord (.callSysFunction (some .string)))
  | 0x06 => some (.withWord .branch)
  | 0x07 => some (.withWord .branchGoto)
  | 0x08 => some (.withWord .branchIfZero)
  | 0x09 => some (.plain .beginWait)
  | 0x0A => some (.plain .endWait)
  | 0x0B => some (.plain .returnV)
  | 0x0D => some (.withWord (.store .int))
  | 0x0E => some (.withWord (.store .float))
  | 0x0F => some (.withWord (.store .string))
  | 0x10 => some (.withWord (.load .int))
  | 0x11 => some (.withWord (.load .float))
  | 0x12 => some (.withWord (.load .string))
  | 0x13 => some (.withWord fun word => .pushI word.toInt32)
  | 0x14 => some (.withWord .pushF)
  | 0x15 => some (.withWord .pushS)
  | 0x16 => some (.withWord .pop)
  | 0x17 => some (.plain (.binary .add .int))
  | 0x18 => some (.plain (.binary .add .float))
  | 0x19 => some (.plain (.binary .subtract .int))
  | 0x1A => some (.plain (.binary .subtract .float))
  | 0x1B => some (.plain (.binary .multiply .int))
  | 0x1C => some (.plain (.binary .multiply .float))
  | 0x1D => some (.plain (.binary .divide .int))
  | 0x1E => some (.plain (.binary .divide .float))
  | 0x1F => some (.plain (.negate .int))
  | 0x20 => some (.plain (.negate .float))
  | 0x21 => some (.plain (.binary .isEqual .int))
  | 0x22 => some (.plain (.binary .isEqual .float))
  | 0x23 => some (.plain (.binary .notEqual .int))
  | 0x24 => some (.plain (.binary .notEqual .float))
  | 0x25 => some (.plain (.binary .isGreater .int))
  | 0x26 => some (.plain (.binary .isGreater .float))
  | 0x27 => some (.plain (.binary .isLess .int))
  | 0x28 => some (.plain (.binary .isLess .float))
  | 0x29 => some (.plain (.binary .isGreaterEqual .int))
  | 0x2A => some (.plain (.binary .isGreaterEqual .float))
  | 0x2B => some (.plain (.binary .isLessEqual .int))
  | 0x2C => some (.plain (.binary .isLessEqual .float))
  | 0x2D => some (.plain .iToF)
  | 0x2E => some (.plain .fToI)
  | 0x2F => some (.plain .modulo)
  | 0x30 => some (.plain .and)
  | 0x31 => some (.plain .or)
  | 0x32 => some (.plain .not)
  | 0x33 => some (.plain .getString)
  | 0x34 => some (.plain .debugBreakpoint)
  | _ => none

namespace Instruction

/-- The opcode byte of an instruction. -/
def opcode : Instruction → UInt8
  | .sitnSpin => 0x00
  | .yield => 0x01
  | .callSysFunction none _ => 0x02
  | .callSysFunction (some kind) _ => 0x03 + kind.step
  | .branch _ => 0x06
  | .branchGoto _ => 0x07
  | .branchIfZero _ => 0x08
  | .beginWait => 0x09
  | .endWait => 0x0A
  | .returnV => 0x0B
  | .store kind _ => 0x0D + kind.step
  | .load kind _ => 0x10 + kind.step
  | .pushI _ => 0x13
  | .pushF _ => 0x14
  | .pushS _ => 0x15
  | .pop _ => 0x16
  | .binary op flavour => op.opcode + flavour.step
  | .negate flavour => 0x1F + flavour.step
  | .iToF => 0x2D
  | .fToI => 0x2E
  | .modulo => 0x2F
  | .and => 0x30
  | .or => 0x31
  | .not => 0x32
  | .getString => 0x33
  | .debugBreakpoint => 0x34

/-- The operand word of an instruction that has one. -/
def word? : Instruction → Option UInt32
  | .callSysFunction _ n | .branch n | .branchGoto n | .branchIfZero n | .store _ n | .load _ n
  | .pushS n | .pop n | .pushF n => some n
  | .pushI n => some n.toUInt32
  | _ => none

/-- How many bytes an instruction takes. -/
def size (i : Instruction) : Nat :=
  if i.word?.isSome then 5 else 1

end Instruction

/-- An instruction as the meaning of its opcode and the operand word that completes it. -/
def Opcode.complete : Opcode → UInt32 → Instruction
  | .plain i, _ => i
  | .withWord build, word => build word

/-- The instruction with a mnemonic and an operand word; the word is unused where none is taken. -/
def Instruction.ofMnemonic? (name : String) (word : UInt32) : Option Instruction :=
  (List.range 256).findSome? fun byte => do
    let i := (← Opcode.ofByte? (UInt8.ofNat byte)).complete word
    if i.mnemonic = name then some i else none

namespace Bytecode

/-- The four bytes of a word, the least significant first. -/
def wordBytes (w : UInt32) : List UInt8 :=
  [w.toUInt8, (w >>> 8).toUInt8, (w >>> 16).toUInt8, (w >>> 24).toUInt8]

/-- The word of four bytes, the least significant first. -/
def wordOfBytes (a b c d : UInt8) : UInt32 :=
  a.toUInt32 ||| b.toUInt32 <<< 8 ||| c.toUInt32 <<< 16 ||| d.toUInt32 <<< 24

/-- The word that starts at a position, if four bytes are left. -/
def wordAt? (code : Array UInt8) (pc : Nat) : Option UInt32 := do
  return wordOfBytes (← code[pc]?) (← code[pc + 1]?) (← code[pc + 2]?) (← code[pc + 3]?)

end Bytecode

namespace Instruction

/-- The bytes of an instruction. -/
def encode (i : Instruction) : List UInt8 :=
  i.opcode :: (i.word?.map Bytecode.wordBytes).getD []

/-- The instruction at a position and the position after it. A byte that is no opcode is reported
as such even where the code ends after it. -/
def decode (code : Array UInt8) (pc : Nat) : Except ScriptError (Instruction × Nat) :=
  match code[pc]? with
  | none => .error (.truncatedInstruction pc)
  | some byte =>
    match Opcode.ofByte? byte with
    | none => .error (.unknownOpcode pc byte)
    | some (.plain i) => .ok (i, pc + 1)
    | some (.withWord build) =>
      match Bytecode.wordAt? code (pc + 1) with
      | none => .error (.truncatedInstruction pc)
      | some word => .ok (build word, pc + 5)

end Instruction

end SheepScene
