import SheepScene.Proofs.Sheep.Filling
import SheepScene.Sheep.Listing

/-!
# Functions in a listing

Code that is made of instructions is read to its end, one instruction at each of their places
(`Bytecode.instructionsFrom_of_drop`). Below the tables a listing has a line for each of them, and
before it one for each function that starts there (`Script.codeLines`), so that lines stand in the
order of their places (`Script.pairwise_codeLines`).

In a script that an assembler has built every function starts at an instruction or at the end of the
code. The former have their lines (`entry_points_are_marked`), and the latter have none
(`entry_points_may_be_missing`).
-/

set_option autoImplicit false

namespace SheepScene

open Bytecode (encodeAll startOf Boundary)

/-! ## Reading to the end -/

namespace Bytecode

/-- Instructions with their places, when they stand one after the other from a place on. -/
def located (pc : Nat) : List Instruction → List (Nat × Instruction)
  | [] => []
  | i :: rest => (pc, i) :: located (pc + i.size) rest

/-- What is left of the code is read as the instructions that it is made of. -/
theorem instructionsFrom_of_drop {code : Array UInt8} {pc : Nat} {l : List Instruction}
    (h : code.toList.drop pc = encodeAll l) : instructionsFrom code pc = .ok (located pc l) := by
  induction l generalizing pc with
  | nil =>
    have ended : ¬ pc < code.size := by
      have := List.drop_eq_nil_iff.1 h
      simpa using this
    rw [instructionsFrom, if_neg ended, located]
  | cons i l ih =>
    rw [encodeAll_cons] at h
    have decoded := Instruction.decode_of_drop h
    have inside : pc < code.size := by
      have length : code.size - pc = i.size + (encodeAll l).length := by
        simpa using congrArg List.length h
      have := i.size_pos
      omega
    rw [instructionsFrom, if_pos inside]
    split
    · rename_i e herror
      rw [decoded] at herror
      cases herror
    · rename_i i' next' hok
      rw [decoded] at hok
      cases hok
      simp only [ih (drop_add_size h), located]

/-- An instruction stands no earlier than the first one. -/
theorem le_of_mem_located {pc : Nat} {l : List Instruction} {x : Nat × Instruction}
    (h : x ∈ located pc l) : pc ≤ x.1 := by
  induction l generalizing pc with
  | nil => cases h
  | cons i l ih =>
    rcases List.mem_cons.1 h with rfl | h
    · exact Nat.le_refl _
    · exact Nat.le_trans (Nat.le_add_right ..) (ih h)

/-- Instructions have increasing places. -/
theorem pairwise_located (pc : Nat) (l : List Instruction) :
    (located pc l).Pairwise fun x y => x.1 < y.1 := by
  induction l generalizing pc with
  | nil => exact .nil
  | cons i l ih =>
    refine .cons (fun y hy => ?_) (ih _)
    have := le_of_mem_located hy
    have := i.size_pos
    simp only
    omega

/-- The places are those where instructions start. -/
theorem mem_located {pc pc' : Nat} {l : List Instruction} :
    pc' ∈ (located pc l).map Prod.fst ↔ ∃ k < l.length, pc' = pc + startOf l k := by
  induction l generalizing pc with
  | nil => simp [located]
  | cons i l ih =>
    have first : startOf (i :: l) 0 = 0 := rfl
    have next : ∀ k, startOf (i :: l) (k + 1) = i.size + startOf l k := by
      intro k
      simp [startOf]
    rw [located, List.map_cons, List.mem_cons, ih]
    constructor
    · rintro (rfl | ⟨k, hk, rfl⟩)
      · exact ⟨0, Nat.succ_pos _, rfl⟩
      · exact ⟨k + 1, Nat.succ_lt_succ hk, by rw [next, Nat.add_assoc]⟩
    · rintro ⟨k, hk, rfl⟩
      cases k with
      | zero => exact .inl (by rw [first, Nat.add_zero])
      | succ k => exact .inr ⟨k, Nat.lt_of_succ_lt_succ hk, by rw [next, Nat.add_assoc]⟩

/-- A boundary is the place of an instruction or the end. -/
theorem boundary_iff_located {l : List Instruction} {pc : Nat} :
    Boundary l pc ↔ pc ∈ (located 0 l).map Prod.fst ∨ pc = (encodeAll l).length := by
  rw [mem_located]
  constructor
  · rintro ⟨k, hk, rfl⟩
    rcases Nat.lt_or_eq_of_le hk with hlt | rfl
    · exact .inl ⟨k, hlt, (Nat.zero_add _).symm⟩
    · exact .inr (startOf_length l)
  · rintro (⟨k, hk, rfl⟩ | rfl)
    · exact ⟨k, Nat.le_of_lt hk, Nat.zero_add _⟩
    · exact boundary_end l

end Bytecode

/-! ## Lines -/

/-- A line of a listing below the tables. -/
inductive CodeLine where
  | entry (f : EntryPoint)
  | instruction (pc : Nat) (i : Instruction)

namespace CodeLine

/-- How a line is written. -/
def text (s : Script) : CodeLine → String
  | .entry f => s!"{f.name}:"
  | .instruction pc i => s.instructionLine pc i

/-- The function that a line names. -/
def entry? : CodeLine → Option EntryPoint
  | .entry f => some f
  | .instruction .. => none

/-- The instruction of a line and its place. -/
def instruction? : CodeLine → Option (Nat × Instruction)
  | .entry _ => none
  | .instruction pc i => some (pc, i)

/-- Two lines, the first of which may stand before the second: instructions stand in the order of
their places, and entry points behind the instructions before them and before all others. -/
def Before : CodeLine → CodeLine → Prop
  | .instruction pc _, .instruction pc' _ => pc < pc'
  | .instruction pc _, .entry f => pc < f.offset.toNat
  | .entry f, .instruction pc _ => f.offset.toNat ≤ pc
  | .entry _, .entry _ => True

end CodeLine

namespace Script

/-- The text of a listing with these lines below the tables. -/
def render (s : Script) (lines : List CodeLine) : String :=
  String.join ((s.tableLines ++ lines.map (·.text s)).map fun line => line ++ "\n")

/-- The lines of instructions, each behind those of the functions that start there. -/
def codeLines (s : Script) (instructions : List (Nat × Instruction)) : List CodeLine :=
  instructions.flatMap fun (pc, i) =>
    (s.functions.toList.filter fun f => f.offset.toNat = pc).map .entry ++ [.instruction pc i]

/-- The lines of code are, for every instruction, those of the functions that begin there and its
own. -/
theorem text_codeLines (s : Script) (instructions : List (Nat × Instruction)) :
    (s.codeLines instructions).map (·.text s)
      = instructions.flatMap fun (pc, i) => s.functionLines pc ++ [s.instructionLine pc i] := by
  simp [codeLines, functionLines, List.map_flatMap, CodeLine.text, Function.comp_def]

/-- The listing renders the lines of code, if the code can be read. -/
theorem listing_eq (s : Script) :
    s.listing = (Bytecode.instructionsFrom s.bytecode 0).map fun instructions =>
      s.render (s.codeLines instructions) := by
  unfold listing render
  simp only [text_codeLines]
  cases Bytecode.instructionsFrom s.bytecode 0 <;> rfl

/-- Taking a list apart by the keys of its elements and putting it together again. -/
theorem flatMap_filter_perm {α : Type} (key : α → Nat) (l : List α) {keys : List Nat}
    (distinct : keys.Nodup) :
    (keys.flatMap fun k => l.filter fun x => key x = k).Perm (l.filter fun x => key x ∈ keys) := by
  induction keys with
  | nil => simp
  | cons k keys ih =>
    obtain ⟨hnew, hrest⟩ := List.nodup_cons.1 distinct
    have parts := List.filter_append_perm (fun x => decide (key x = k))
      (l.filter fun x => key x ∈ k :: keys)
    have here : (l.filter fun x => key x ∈ k :: keys).filter (fun x => decide (key x = k))
        = l.filter fun x => key x = k := by
      rw [List.filter_filter]
      refine List.filter_congr fun x _ => ?_
      by_cases hk : key x = k <;> simp [hk]
    have elsewhere : (l.filter fun x => key x ∈ k :: keys).filter (fun x => !decide (key x = k))
        = l.filter fun x => key x ∈ keys := by
      rw [List.filter_filter]
      refine List.filter_congr fun x _ => ?_
      by_cases hk : key x = k
      · simp [hk, hnew]
      · simp [hk]
    rw [here, elsewhere] at parts
    rw [List.flatMap_cons]
    exact ((ih hrest).append_left _).trans parts

variable (s : Script) {instructions : List (Nat × Instruction)}

/-- The lines of the instructions are these. -/
theorem instruction?_codeLines :
    (s.codeLines instructions).filterMap CodeLine.instruction? = instructions := by
  have none : ∀ l : List EntryPoint,
      (l.map CodeLine.entry).filterMap CodeLine.instruction? = [] := by
    intro l
    simp [CodeLine.instruction?]
  unfold codeLines
  induction instructions with
  | nil => rfl
  | cons x rest ih =>
    rw [List.flatMap_cons, List.filterMap_append, List.filterMap_append, none, ih]
    rfl

/-- Of the functions those have a line that start at an instruction, and one each. -/
theorem entry?_codeLines (distinct : (instructions.map Prod.fst).Nodup) :
    ((s.codeLines instructions).filterMap CodeLine.entry?).Perm
      (s.functions.toList.filter fun f => f.offset.toNat ∈ instructions.map Prod.fst) := by
  have all : ∀ l : List EntryPoint, (l.map CodeLine.entry).filterMap CodeLine.entry? = l := by
    intro l
    simp [List.filterMap_map, Function.comp_def, CodeLine.entry?]
  have marks : (s.codeLines instructions).filterMap CodeLine.entry?
      = (instructions.map Prod.fst).flatMap fun pc =>
        s.functions.toList.filter fun f => f.offset.toNat = pc := by
    rw [codeLines, List.filterMap_flatMap, List.flatMap_map]
    congr 1
    funext x
    rw [List.filterMap_append, all]
    exact List.append_nil _
  rw [marks]
  exact flatMap_filter_perm (fun f : EntryPoint => f.offset.toNat) _ distinct

/-- Lines stand in their order. -/
theorem pairwise_codeLines (increasing : instructions.Pairwise fun x y => x.1 < y.1) :
    (s.codeLines instructions).Pairwise CodeLine.Before := by
  have here : ∀ (pc : Nat) (i : Instruction) (line : CodeLine),
      line ∈ (s.functions.toList.filter fun f => f.offset.toNat = pc).map .entry
        ++ [.instruction pc i] →
      (∃ f, line = .entry f ∧ f.offset.toNat = pc) ∨ line = .instruction pc i := by
    intro pc i line hline
    rcases List.mem_append.1 hline with hline | hline
    · obtain ⟨f, hf, rfl⟩ := List.mem_map.1 hline
      exact .inl ⟨f, rfl, by simpa using (List.mem_filter.1 hf).2⟩
    · exact .inr (List.mem_singleton.1 hline)
  rw [codeLines, List.pairwise_flatMap]
  refine ⟨fun (pc, i) _ => ?_, increasing.imp fun {x y} hlt line hline line' hline' => ?_⟩
  · -- The entry points are in any order, and the instruction stands at their place.
    refine List.pairwise_append.2
      ⟨?_, List.pairwise_singleton .., fun line hline line' hline' => ?_⟩
    · exact List.pairwise_map.2 (List.pairwise_of_forall fun _ _ => trivial)
    · obtain ⟨f, hf, rfl⟩ := List.mem_map.1 hline
      rw [List.mem_singleton.1 hline']
      have : f.offset.toNat = pc := by simpa using (List.mem_filter.1 hf).2
      exact Nat.le_of_eq this
  · rcases here _ _ _ hline with ⟨f, rfl, hf⟩ | rfl <;>
      rcases here _ _ _ hline' with ⟨f', rfl, hf'⟩ | rfl <;>
      simp only [CodeLine.Before] <;> omega

/-- What is in a line is in the listing. -/
theorem mem_render {lines : List CodeLine} {line : CodeLine} (h : line ∈ lines) {c : Char}
    (hc : c ∈ (line.text s).toList) : c ∈ (s.render lines).toList := by
  rw [render, String.toList_join, List.mem_flatMap]
  refine ⟨line.text s ++ "\n", ?_, ?_⟩
  · exact List.mem_map.2 ⟨_, List.mem_append_right _ (List.mem_map_of_mem h), rfl⟩
  · rw [String.toList_append]
    exact List.mem_append_left _ hc

end Script

open Assembler

/-- A script that an assembler has built can be listed. Below its tables it has one line for each
instruction, in order, and one for each function that starts at an instruction, behind those of the
instructions before that place and before all others. These are the functions that start within the
code, as long as places are words: those that were declared behind the last instruction have no
line. -/
theorem entry_points_are_marked {name : String} {steps : List Step} {script : Script}
    (hbuild : ((start name).run steps).build? = .ok script) :
    ∃ instructions lines,
      Bytecode.instructionsFrom script.bytecode 0 = .ok instructions ∧
      script.listing = .ok (script.render lines) ∧
      lines.filterMap CodeLine.instruction? = instructions ∧
      (lines.filterMap CodeLine.entry?).Perm
        (script.functions.toList.filter fun f => f.offset.toNat ∈ instructions.map Prod.fst) ∧
      lines.Pairwise CodeLine.Before ∧
      (script.bytecode.size < UInt32.size → ∀ f ∈ script.functions,
        (f.offset.toNat ∈ instructions.map Prod.fst ↔ f.offset.toNat < script.bytecode.size)) := by
  obtain ⟨-, rfl⟩ := build?_eq_ok_iff.1 hbuild
  have recorded : Recorded ((start name).run steps) ((start name).emissions steps) :=
    (Recorded.start name).run steps
  have same := sameButTargets_filled ((start name).run steps) ((start name).emissions steps)
  have code := bytecode_finished ((start name).run steps) ((start name).emissions steps)
  generalize ((start name).run steps).filled ((start name).emissions steps) = l at same code
  have read := Bytecode.instructionsFrom_of_drop (List.drop_zero.trans code)
  have increasing := Bytecode.pairwise_located 0 l
  have distinct := List.pairwise_map.2 (increasing.imp Nat.ne_of_lt)
  refine ⟨_, _, read, by rw [Script.listing_eq, read]; rfl, Script.instruction?_codeLines _,
    Script.entry?_codeLines _ distinct, Script.pairwise_codeLines _ increasing,
    fun fits f hf => ?_⟩
  rw [recorded.size_finished] at fits
  have bounded := (same.boundary_iff _).2 (boundary_function fits f hf)
  rw [← Array.length_toList, code]
  constructor
  · intro hplace
    obtain ⟨k, hk, heq⟩ := Bytecode.mem_located.1 hplace
    rw [heq, Nat.zero_add, ← Bytecode.startOf_length]
    exact Bytecode.startOf_lt hk (Nat.le_refl _)
  · intro inside
    exact (Bytecode.boundary_iff_located.1 bounded).resolve_right (Nat.ne_of_lt inside)

/-- Two functions at one place, one at the next, and one behind the last instruction. -/
def epilogueSteps : List Step :=
  [.use (.declareFunction "main"), .use (.declareFunction "again"), .raw .returnV,
    .use (.declareFunction "next"), .raw .returnV, .use (.declareFunction "tail")]

/-- All functions but the last one have their lines. -/
theorem entry_points_are_marked_epilogue :
    ∃ script, ((start "s").run epilogueSteps).build? = .ok script ∧
      script.listing.toOption
        = some "; script s\nmain:\nagain:\n  0x0000  ReturnV\nnext:\n  0x0001  ReturnV\n" ∧
      ∃ lines, script.listing = .ok (script.render lines) ∧ lines.Pairwise CodeLine.Before ∧
        (lines.filterMap CodeLine.entry?).Perm [⟨"main", 0⟩, ⟨"again", 0⟩, ⟨"next", 1⟩] := by
  have built : ((start "s").run epilogueSteps).build?
      = .ok ((start "s").run epilogueSteps).script := rfl
  obtain ⟨instructions, lines, read, listed, -, marked, ordered, -⟩ := entry_points_are_marked built
  have two : (Bytecode.instructionsFrom ((start "s").run epilogueSteps).script.bytecode 0).toOption
      = some [(0, .returnV), (1, .returnV)] := by decide +kernel
  rw [read] at two
  rw [Option.some.inj two] at marked
  exact ⟨_, built, by decide +kernel, lines, listed, ordered, marked⟩

/-- A function that is declared behind the last instruction has no line. -/
theorem entry_points_may_be_missing :
    ¬ ∀ (name : String) (steps : List Step) (script : Script),
      ((start name).run steps).build? = .ok script →
      ∃ lines, script.listing = .ok (script.render lines) ∧
        (lines.filterMap CodeLine.entry?).Perm script.functions.toList ∧
        lines.Pairwise CodeLine.Before := by
  intro claim
  obtain ⟨lines, hlisting, all, -⟩ := claim "s" epilogueSteps
    ((start "s").run epilogueSteps).script rfl
  have tail : ⟨"tail", 2⟩ ∈ lines.filterMap CodeLine.entry? := all.mem_iff.2 (by decide)
  obtain ⟨line, hline, hentry⟩ := List.mem_filterMap.1 tail
  cases line with
  | instruction pc i => cases hentry
  | entry f =>
    cases hentry
    -- The letter l is in the line that is wanted and nowhere in the listing.
    have wanted : 'l' ∈ (((start "s").run epilogueSteps).script.render lines).toList :=
      Script.mem_render _ hline (by decide +kernel)
    have written : ((start "s").run epilogueSteps).script.listing.toOption
        = some "; script s\nmain:\nagain:\n  0x0000  ReturnV\nnext:\n  0x0001  ReturnV\n" := by
      decide +kernel
    rw [hlisting] at written
    rw [Option.some.inj written] at wanted
    exact absurd wanted (by decide +kernel)

end SheepScene
