import SheepScene.Sheep.Encoding
import SheepScene.Sheep.Script
import SheepScene.Text.Quoted

/-!
# Listings

The code of a script is read from its start to its end, and `Script.listing` writes one line per
instruction below the tables, with the names of functions where they start and of what an operand
refers to.
-/

set_option autoImplicit false

namespace SheepScene

namespace Instruction

/-- Decoding moves forward. -/
theorem lt_of_decode {code : Array UInt8} {pc next : Nat} {i : Instruction}
    (h : decode code pc = .ok (i, next)) : pc < next := by
  unfold decode at h
  split at h
  · simp at h
  · split at h
    · simp at h
    · simp only [Except.ok.injEq, Prod.mk.injEq] at h
      omega
    · split at h
      · simp at h
      · simp only [Except.ok.injEq, Prod.mk.injEq] at h
        omega

end Instruction

/-- The instructions from a position to the end of the code, each with its position. -/
def Bytecode.instructionsFrom (code : Array UInt8) (pc : Nat) :
    Except ScriptError (List (Nat × Instruction)) :=
  if pc < code.size then
    match h : Instruction.decode code pc with
    | .error e => .error e
    | .ok (i, next) =>
      have : pc < next := Instruction.lt_of_decode h
      match instructionsFrom code next with
      | .error e => .error e
      | .ok rest => .ok ((pc, i) :: rest)
  else .ok []
termination_by code.size - pc

namespace Script

/-- The lines above the code: the name of the script and its tables. -/
def tableLines (s : Script) : List String :=
  let column := fun (i : Nat) => Text.alignRight 3 (toString i)
  [s!"; script {s.name}"]
    ++ s.strings.toList.mapIdx (fun i text => s!"; string {column i}: {Text.quoted text}")
    ++ s.vars.toList.mapIdx (fun i v =>
      s!"; var    {column i}: {v.kind.name} {v.name} = {v.initial.text}")
    ++ s.imports.toList.mapIdx (fun i f =>
      s!"; import {column i}: {f.name}/{f.argCount.toNat}")

/-- What the operand of an instruction refers to, where that is in the tables. -/
def reference? (s : Script) : Instruction → Option String
  | .pushS offset => (s.string? offset).map Text.quoted
  | .callSysFunction _ index => s.imports[index.toNat]?.map (·.name)
  | .store _ index | .load _ index => s.vars[index.toNat]?.map (·.name)
  | _ => none

/-- The line of an instruction. -/
def instructionLine (s : Script) (pc : Nat) (i : Instruction) : String :=
  let comment := match s.reference? i with
    | some text => s!"  ; {text}"
    | none => ""
  s!"  {Text.address pc}  {i.text}{comment}"

/-- The lines that name the functions that start at a position. -/
def functionLines (s : Script) (pc : Nat) : List String :=
  (s.functions.toList.filter fun f => f.offset.toNat = pc).map fun f => s!"{f.name}:"

/-- The whole listing, or why the code cannot be read to its end. -/
def listing (s : Script) : Except ScriptError String := do
  let instructions ← Bytecode.instructionsFrom s.bytecode 0
  let code := instructions.flatMap fun (pc, i) => s.functionLines pc ++ [s.instructionLine pc i]
  return String.join ((s.tableLines ++ code).map fun line => line ++ "\n")

end Script

end SheepScene
