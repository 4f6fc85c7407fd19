import SheepScene.Proofs.Sheep.Decoding
import SheepScene.Sheep.Assembler

/-!
# What the assembler writes

`Assembler.Use` is a call of the assembler that leaves the targets of jumps to labels, and
`Assembler.written` are the instructions that a sequence of calls writes, jumps with a target that
is still missing.

A script is laid out (`Script.LaidOut`) when its code is a list of instructions and all of its
functions and jumps lead to the start of one of them or to the end (`Bytecode.Boundary`).
-/

set_option autoImplicit false

namespace SheepScene

/-! ## Boundaries -/

namespace Bytecode

/-- Where the instruction of an index starts, when instructions stand one after the other. -/
def startOf (l : List Instruction) (k : Nat) : Nat :=
  (encodeAll (l.take k)).length

/-- The start of an instruction, or the end of the last one. -/
def Boundary (l : List Instruction) (pc : Nat) : Prop :=
  ∃ k ≤ l.length, pc = startOf l k

/-- The code of instructions one after the other. -/
@[simp] theorem encodeAll_append (l l' : List Instruction) :
    encodeAll (l ++ l') = encodeAll l ++ encodeAll l' :=
  List.flatMap_append

/-- The last instruction ends where the code ends. -/
@[simp] theorem startOf_length (l : List Instruction) :
    startOf l l.length = (encodeAll l).length := by
  rw [startOf, List.take_length]

/-- Instructions that come later do not move those before them. -/
theorem startOf_append {l : List Instruction} {k : Nat} (h : k ≤ l.length)
    (l' : List Instruction) : startOf (l ++ l') k = startOf l k := by
  rw [startOf, List.take_append_of_le_length h, startOf]

/-- The next instruction starts where one ends. -/
theorem startOf_succ {l : List Instruction} {k : Nat} {i : Instruction} (h : l[k]? = some i) :
    startOf l (k + 1) = startOf l k + i.size := by
  rw [startOf, List.take_add_one, h]
  simp [startOf]

/-- An instruction starts before the later ones. -/
theorem startOf_lt {l : List Instruction} {k k' : Nat} (h : k < k') (hk' : k' ≤ l.length) :
    startOf l k < startOf l k' := by
  induction k' with
  | zero => omega
  | succ k' ih =>
    have step := startOf_succ (List.getElem?_eq_getElem hk')
    have := l[k'].size_pos
    rcases Nat.lt_succ_iff_lt_or_eq.1 h with hlt | rfl
    · have := ih hlt (by omega)
      omega
    · omega

/-- The end of the code is a boundary. -/
theorem boundary_end (l : List Instruction) : Boundary l (encodeAll l).length :=
  ⟨l.length, Nat.le_refl _, (startOf_length l).symm⟩

/-- The end of each instruction is a boundary. -/
theorem boundary_succ {l : List Instruction} {k : Nat} {i : Instruction} (h : l[k]? = some i) :
    Boundary l (startOf l k + i.size) :=
  ⟨k + 1, (List.getElem?_eq_some_iff.1 h).1, (startOf_succ h).symm⟩

/-- Boundaries stay where they are when instructions are added. -/
theorem Boundary.append {l : List Instruction} {pc : Nat} (h : Boundary l pc)
    (l' : List Instruction) : Boundary (l ++ l') pc := by
  obtain ⟨k, hk, rfl⟩ := h
  exact ⟨k, by rw [List.length_append]; omega, (startOf_append hk l').symm⟩

/-- A boundary lies within the code. -/
theorem Boundary.le {l : List Instruction} {pc : Nat} (h : Boundary l pc) :
    pc ≤ (encodeAll l).length := by
  obtain ⟨k, hk, rfl⟩ := h
  rw [← startOf_length]
  rcases Nat.lt_or_eq_of_le hk with hlt | rfl
  · exact Nat.le_of_lt (startOf_lt hlt (Nat.le_refl _))
  · exact Nat.le_refl _

/-- The bytes around an instruction. -/
theorem encodeAll_eq {l : List Instruction} {k : Nat} {i : Instruction} (h : l[k]? = some i) :
    encodeAll l = encodeAll (l.take k) ++ (i.encode ++ encodeAll (l.drop (k + 1))) := by
  obtain ⟨hk, hi⟩ := List.getElem?_eq_some_iff.1 h
  have split : l.take k ++ (i :: l.drop (k + 1)) = l := by
    rw [← hi, List.getElem_cons_drop, List.take_append_drop]
  rw [← encodeAll_cons, ← encodeAll_append, split]

/-- What is left of the code at the start of an instruction begins with that instruction. -/
theorem drop_startOf {l : List Instruction} {k : Nat} {i : Instruction} (h : l[k]? = some i) :
    (encodeAll l).drop (startOf l k) = i.encode ++ encodeAll (l.drop (k + 1)) := by
  rw [encodeAll_eq h, startOf, List.drop_left]

end Bytecode

open Bytecode (encodeAll startOf Boundary)

/-- The code of a script is a list of instructions; its functions start, and its jumps go, where one
of them starts or at the end. -/
structure Script.LaidOut (s : Script) (l : List Instruction) : Prop where
  code : s.bytecode.toList = encodeAll l
  functions : ∀ f ∈ s.functions, Boundary l f.offset.toNat
  targets : ∀ i ∈ l, ∀ target, i.target? = some target → Boundary l target.toNat

/-! ## Uses of an assembler -/

namespace Assembler

/-- What can be done with an assembler. A jump goes to a label; any other instruction is emitted as
it is. -/
inductive Use where
  | internString (text : String)
  | declareVariable (name : String) (initial : Value)
  | internImport (name : String) (argCount : UInt32)
  | declareFunction (name : String)
  | newLabel
  | bind (label : Label)
  | emit (i : Instruction) (plain : i.target? = none)
  | branch (label : Label)
  | branchGoto (label : Label)
  | branchIfZero (label : Label)
  | pushString (text : String)
  | call (name : String) (argCount : UInt32) (result : Option Kind)

/-- The assembler after a use. -/
def use (a : Assembler) : Use → Assembler
  | .internString text => (a.internString text).2
  | .declareVariable name initial => (a.declareVariable name initial).2
  | .internImport name argCount => (a.internImport name argCount).2
  | .declareFunction name => a.declareFunction name
  | .newLabel => a.newLabel.2
  | .bind label => a.bind label
  | .emit i _ => a.emit i
  | .branch label => a.jump .branch label
  | .branchGoto label => a.jump .branchGoto label
  | .branchIfZero label => a.jump .branchIfZero label
  | .pushString text => a.pushString text
  | .call name argCount result => a.call name argCount result

/-- The instructions that a use writes, jumps with zero for their target. -/
def writes (a : Assembler) : Use → List Instruction
  | .emit i _ => [i]
  | .branch _ => [.branch 0]
  | .branchGoto _ => [.branchGoto 0]
  | .branchIfZero _ => [.branchIfZero 0]
  | .pushString text => [.pushS (a.internString text).1, .getString]
  | .call name argCount result =>
    [.pushI argCount.toInt32, .callSysFunction result (a.internImport name argCount).1]
      ++ if result.isNone then [.pop 1] else []
  | _ => []

/-- The assembler after some uses. -/
def uses (a : Assembler) (l : List Use) : Assembler :=
  l.foldl use a

/-- The instructions that some uses write, one use after the other. -/
def written (a : Assembler) : List Use → List Instruction
  | [] => []
  | u :: rest => a.writes u ++ written (a.use u) rest

end Assembler

end SheepScene
