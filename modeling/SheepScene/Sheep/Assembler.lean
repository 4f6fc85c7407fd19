import SheepScene.Sheep.Encoding
import SheepScene.Sheep.Script

/-!
# Assembling a script

An `Assembler` is a script under construction. Strings and imports are entered once however often
they are named. Jumps go to labels, which may be bound before or after the jump; `build?` writes
the bound positions into the code, or reports the first jump whose label has none.
-/

set_option autoImplicit false

namespace SheepScene

/-- A label, by its number in the assembler that made it. -/
structure Label where
  index : Nat
  deriving DecidableEq, Repr

/-- A script under construction. -/
structure Assembler where
  script : Script
  /-- Where each label is bound. -/
  labels : Array (Option UInt32)
  /-- The operands that stand for labels, by their position in the code, in order of emission. -/
  jumps : Array (Nat × Label)

namespace Assembler

/-- An assembler for a script of the given name. -/
def start (name : String) : Assembler :=
  { script := .blank name, labels := #[], jumps := #[] }

/-- The position of the next instruction. -/
def offset (a : Assembler) : UInt32 :=
  UInt32.ofNat a.script.bytecode.size

/-- The index of a text in the string table, entered if it is new. -/
def internString (a : Assembler) (text : String) : UInt32 × Assembler :=
  match a.script.strings.findIdx? (· == text) with
  | some i => (UInt32.ofNat i, a)
  | none =>
    (UInt32.ofNat a.script.strings.size,
      { a with script := { a.script with strings := a.script.strings.push text } })

/-- Declares a variable; a second one of the same name is another variable. -/
def declareVariable (a : Assembler) (name : String) (initial : Value) : UInt32 × Assembler :=
  (UInt32.ofNat a.script.vars.size,
    { a with script :=
      { a.script with vars := a.script.vars.push { name, initial } } })

/-- The index of an import, entered if none has this count and, in any case, this name. -/
def internImport (a : Assembler) (name : String) (argCount : UInt32) : UInt32 × Assembler :=
  match a.script.imports.findIdx? fun i => Text.sameName i.name name && i.argCount == argCount with
  | some i => (UInt32.ofNat i, a)
  | none =>
    (UInt32.ofNat a.script.imports.size,
      { a with script := { a.script with imports := a.script.imports.push { name, argCount } } })

/-- Declares a function at the current position. -/
def declareFunction (a : Assembler) (name : String) : Assembler :=
  { a with script :=
    { a.script with functions := a.script.functions.push { name, offset := a.offset } } }

/-- A new label, not bound yet. -/
def newLabel (a : Assembler) : Label × Assembler :=
  (⟨a.labels.size⟩, { a with labels := a.labels.push none })

/-- Binds a label to the current position; a label of another assembler is left alone. -/
def bind (a : Assembler) (label : Label) : Assembler :=
  { a with labels := a.labels.setIfInBounds label.index (some a.offset) }

/-- Adds an instruction. -/
def emit (a : Assembler) (i : Instruction) : Assembler :=
  { a with script := { a.script with bytecode := a.script.bytecode ++ i.encode } }

/-- Adds a jump whose target is filled in when the script is built. -/
def jump (a : Assembler) (instruction : UInt32 → Instruction) (label : Label) : Assembler :=
  emit { a with jumps := a.jumps.push (a.script.bytecode.size + 1, label) } (instruction 0)

/-- Pushes a text, by way of the string table. -/
def pushString (a : Assembler) (text : String) : Assembler :=
  let (offset, a) := a.internString text
  (a.emit (.pushS offset)).emit .getString

/-- Calls a host function on the arguments pushed before; an answer that is not wanted is
dropped. -/
def call (a : Assembler) (name : String) (argCount : UInt32) (result : Option Kind) : Assembler :=
  let (index, a) := a.internImport name argCount
  let a := (a.emit (.pushI argCount.toInt32)).emit (.callSysFunction result index)
  if result.isNone then a.emit (.pop 1) else a

/-- The position a label is bound to. -/
def target? (a : Assembler) (label : Label) : Option UInt32 :=
  (a.labels[label.index]?).join

/-- Writes a word over the four bytes at a position. -/
def patch (code : Array UInt8) (position : Nat) (word : UInt32) : Array UInt8 :=
  (Bytecode.wordBytes word).zipIdx.foldl
    (fun code byte => code.setIfInBounds (position + byte.2) byte.1) code

/-- The finished script, or the first jump to a label that was never bound. -/
def build? (a : Assembler) : Except ScriptError Script := do
  let code ← a.jumps.toList.foldlM (fun code jump =>
    match a.target? jump.2 with
    | some target => .ok (patch code jump.1 target)
    | none => .error (.unboundLabel jump.2.index)) a.script.bytecode
  return { a.script with bytecode := code }

end Assembler

end SheepScene
