import SheepScene.Proofs.Sheep.Building

/-!
# Filling in the labels

Filling in a label writes over the target of a jump (`Assembler.patch_encodeAll`), and instructions
start where they did whatever the targets are (`SameButTargets`). So all that is built is known from
what was emitted (`Assembler.Recorded.build?_eq`): the first jump to a label that is not bound is
reported, and if there is none the code are the emitted instructions with their targets filled in.

Functions and labels of a new assembler stand between two instructions, so a script that is built
from uses alone is laid out (`Assembler.laidOut_build`).
-/

set_option autoImplicit false

namespace SheepScene

open Bytecode (encodeAll startOf Boundary)

/-! ## Targets of jumps -/

/-- The same instruction with another target, if it is a jump. -/
def Instruction.withTarget (target : UInt32) : Instruction → Instruction
  | .branch _ => .branch target
  | .branchGoto _ => .branchGoto target
  | .branchIfZero _ => .branchIfZero target
  | i => i

namespace Instruction

variable {i : Instruction} {target : UInt32}

/-- A jump that is given a target has it. -/
theorem target?_withTarget (h : i.target? ≠ none) :
    (i.withTarget target).target? = some target := by
  cases i <;> first | rfl | exact absurd rfl h

/-- Of two targets the second counts. -/
theorem withTarget_withTarget (target target' : UInt32) (i : Instruction) :
    (i.withTarget target).withTarget target' = i.withTarget target' := by
  cases i <;> rfl

/-- The bytes of a jump are its opcode and its target. -/
theorem encode_jump (h : i.target? = some target) :
    i.encode = i.opcode :: Bytecode.wordBytes target := by
  cases i <;> cases h <;> rfl

/-- A target does not change the opcode. -/
theorem opcode_withTarget (target : UInt32) (i : Instruction) :
    (i.withTarget target).opcode = i.opcode := by
  cases i <;> rfl

/-- A target does not change the size. -/
theorem size_withTarget (target : UInt32) (i : Instruction) :
    (i.withTarget target).size = i.size := by
  cases i <;> rfl

end Instruction

/-- Instructions that differ in the targets of jumps only. -/
def SameButTargets (l l' : List Instruction) : Prop :=
  l'.map (Instruction.withTarget 0) = l.map (Instruction.withTarget 0)

namespace SameButTargets

variable {l l' : List Instruction}

/-- With other targets there are as many instructions. -/
theorem length_eq (h : SameButTargets l l') : l'.length = l.length := by
  simpa using congrArg List.length h

/-- With other targets instructions begin where they did. -/
theorem startOf_eq (h : SameButTargets l l') (k : Nat) : startOf l' k = startOf l k := by
  have sizes : ∀ l : List Instruction,
      startOf l k = (((l.map (Instruction.withTarget 0)).take k).map Instruction.size).sum := by
    intro l
    unfold startOf encodeAll
    simp [← List.map_take, List.length_flatMap, Function.comp_def, Instruction.size_withTarget]
  rw [sizes, sizes, h]

/-- With other targets the boundaries are the same. -/
theorem boundary_iff (h : SameButTargets l l') (pc : Nat) : Boundary l' pc ↔ Boundary l pc := by
  unfold Boundary
  simp only [h.length_eq, h.startOf_eq]

end SameButTargets

namespace Assembler

/-- Writing over the operand of a jump changes its target. -/
theorem patch_encodeAll {code : Array UInt8} {l : List Instruction} {k : Nat} {i : Instruction}
    (hcode : code.toList = encodeAll l) (hi : l[k]? = some i) (hjump : i.target? ≠ none)
    (target : UInt32) :
    (patch code (startOf l k + 1) target).toList = encodeAll (l.set k (i.withTarget target)) := by
  obtain ⟨old, hold⟩ := Option.ne_none_iff_exists'.1 hjump
  have hk := (List.getElem?_eq_some_iff.1 hi).1
  have hset : (l.set k (i.withTarget target))[k]? = some (i.withTarget target) := by
    rw [List.getElem?_set_self hk]
  rw [Bytecode.encodeAll_eq hset, List.take_set_of_le (Nat.le_refl _),
    List.drop_set_of_lt (Nat.lt_succ_self _),
    Instruction.encode_jump (Instruction.target?_withTarget hjump), Instruction.opcode_withTarget]
  have written : (patch code (startOf l k + 1) target).toList
      = (((code.toList.set (startOf l k + 1) target.toUInt8).set (startOf l k + 2)
        (target >>> 8).toUInt8).set (startOf l k + 3) (target >>> 16).toUInt8).set (startOf l k + 4)
        (target >>> 24).toUInt8 := by
    simp [patch, Bytecode.wordBytes]
  rw [written, hcode, Bytecode.encodeAll_eq hi, Instruction.encode_jump hold, startOf]
  simp [Bytecode.wordBytes]

/-- Fills in the label of one jump. -/
def fillIn (a : Assembler) (code : Array UInt8) (jump : Nat × Label) :
    Except ScriptError (Array UInt8) :=
  match a.target? jump.2 with
  | some target => .ok (patch code jump.1 target)
  | none => .error (.unboundLabel jump.2.index)

/-- Building fills in the jumps one by one. -/
theorem build?_eq (a : Assembler) : a.build? = (do
    let code ← a.jumps.toList.foldlM a.fillIn a.script.bytecode
    return { a.script with bytecode := code }) :=
  rfl

/-! ## Emissions with their targets -/

variable {a : Assembler} {es : List Emission}

/-- The instruction with the target that its label is bound to, if it waits for one. -/
def Emission.aimed (target? : Label → Option UInt32) (e : Emission) : Instruction :=
  match e.label?.bind target? with
  | some target => e.instruction.withTarget target
  | none => e.instruction

/-- The first label that is jumped to and not bound. -/
def firstUnbound? (target? : Label → Option UInt32) (es : List Emission) : Option Label :=
  (es.filterMap Emission.label?).find? fun label => (target? label).isNone

/-- The instructions with all targets that their labels are bound to. -/
def filled (a : Assembler) (es : List Emission) : List Instruction :=
  es.map (·.aimed a.target?)

/-- The first emission is aimed at its target, and so are the others. -/
theorem filled_cons (a : Assembler) (e : Emission) (es : List Emission) :
    a.filled (e :: es) = e.aimed a.target? :: a.filled es :=
  rfl

/-- The script with its code completed. -/
def finished (a : Assembler) (es : List Emission) : Script :=
  { a.script with bytecode := (encodeAll (a.filled es)).toArray }

/-- The finished code is that of the filled emissions. -/
@[simp] theorem bytecode_finished (a : Assembler) (es : List Emission) :
    (a.finished es).bytecode.toList = encodeAll (a.filled es) :=
  rfl

/-- Filling in the target of the first jump of what has been written after other instructions. -/
theorem patch_codeOf (done : List Instruction) {e : Emission}
    (hjump : e.instruction.target? ≠ none) (es : List Emission) (target : UInt32) :
    patch (encodeAll done ++ codeOf (e :: es)).toArray ((encodeAll done).length + 1) target
      = (encodeAll (done ++ [e.instruction.withTarget target]) ++ codeOf es).toArray := by
  have hcode : (encodeAll done ++ codeOf (e :: es)).toArray.toList
      = encodeAll (done ++ e.instruction :: es.map Emission.instruction) := by
    simp [codeOf]
  have here : (done ++ e.instruction :: es.map Emission.instruction)[done.length]?
      = some e.instruction := by
    simp
  have hplace : startOf (done ++ e.instruction :: es.map Emission.instruction) done.length
      = (encodeAll done).length := by
    rw [Bytecode.startOf_append (Nat.le_refl _), Bytecode.startOf_length]
  have patched := patch_encodeAll hcode here hjump target
  rw [hplace] at patched
  apply Array.toList_inj.1
  rw [patched]
  simp [codeOf]

/-- Aiming does not change the size of an instruction. -/
@[simp] theorem size_aimed (target? : Label → Option UInt32) (e : Emission) :
    (e.aimed target?).size = e.instruction.size := by
  unfold Emission.aimed
  split
  · exact Instruction.size_withTarget ..
  · rfl

/-- Filling in labels changes the targets of jumps only. -/
theorem sameButTargets_filled (a : Assembler) (es : List Emission) :
    SameButTargets (es.map Emission.instruction) (a.filled es) := by
  unfold SameButTargets filled
  rw [List.map_map, List.map_map]
  refine List.map_congr_left fun e _ => ?_
  simp only [Function.comp_apply, Emission.aimed]
  split
  · exact Instruction.withTarget_withTarget ..
  · rfl

/-- An emission is aimed at the target of its label. -/
theorem aimed_of_target? {target? : Label → Option UInt32} {e : Emission} {label : Label}
    {target : UInt32} (hlabel : e.label? = some label) (htarget : target? label = some target) :
    e.aimed target? = e.instruction.withTarget target := by
  rw [Emission.aimed, hlabel, Option.bind_some, htarget]

/-- Fills in the labels of what has been written after instructions that are complete. -/
def fillFrom (a : Assembler) (done : List Instruction) (es : List Emission) :
    Except ScriptError (Array UInt8) :=
  (places (encodeAll done).length es).foldlM a.fillIn (encodeAll done ++ codeOf es).toArray

/-- When there is nothing left to fill in the code is done. -/
@[simp] theorem fillFrom_nil (a : Assembler) (done : List Instruction) :
    a.fillFrom done [] = .ok (encodeAll done).toArray := by
  simp [fillFrom, places, codeOf, pure, Except.pure]

/-- An instruction that does not wait, or whose label is bound, is completed. -/
theorem fillFrom_bound (a : Assembler) (done : List Instruction) {e : Emission}
    (jumping : e.label? ≠ none → e.instruction.target? ≠ none)
    (bound : ∀ label, e.label? = some label → a.target? label ≠ none) (es : List Emission) :
    a.fillFrom done (e :: es) = a.fillFrom (done ++ [e.aimed a.target?]) es := by
  have hsize : (encodeAll (done ++ [e.aimed a.target?])).length
      = (encodeAll done).length + e.instruction.size := by
    simp [size_aimed]
  rw [fillFrom, fillFrom, hsize]
  cases hlabel : e.label? with
  | none =>
    have haimed : e.aimed a.target? = e.instruction := by
      rw [Emission.aimed, hlabel, Option.bind_none]
    simp [places, hlabel, haimed, codeOf]
  | some label =>
    obtain ⟨target, htarget⟩ := Option.ne_none_iff_exists'.1 (bound label hlabel)
    have hjump := jumping (by rw [hlabel]; exact Option.some_ne_none _)
    rw [places_of_label? _ hlabel, List.foldlM_cons, fillIn, htarget,
      aimed_of_target? hlabel htarget]
    simp only [patch_codeOf done hjump]
    rfl

/-- A label that is not bound is reported. -/
theorem fillFrom_unbound (a : Assembler) (done : List Instruction) {e : Emission} {label : Label}
    (hlabel : e.label? = some label) (hnone : a.target? label = none) (es : List Emission) :
    a.fillFrom done (e :: es) = .error (.unboundLabel label.index) := by
  rw [fillFrom, places_of_label? _ hlabel, List.foldlM_cons, fillIn, hnone]
  rfl

/-- Filling in stops at the first label that is not bound, or else fills in all targets. -/
theorem fillFrom_eq (a : Assembler) (done : List Instruction) {es : List Emission}
    (jumping : ∀ e ∈ es, e.label? ≠ none → e.instruction.target? ≠ none) :
    a.fillFrom done es = match firstUnbound? a.target? es with
      | some label => .error (.unboundLabel label.index)
      | none => .ok (encodeAll (done ++ a.filled es)).toArray := by
  induction es generalizing done with
  | nil => simp [firstUnbound?, filled]
  | cons e es ih =>
    have here := jumping e (List.mem_cons_self ..)
    have rest := fun e' he' => jumping e' (List.mem_cons_of_mem e he')
    by_cases unbound : ∃ label, e.label? = some label ∧ a.target? label = none
    · obtain ⟨label, hlabel, hnone⟩ := unbound
      have hfirst : firstUnbound? a.target? (e :: es) = some label := by
        simp [firstUnbound?, hlabel, hnone]
      rw [a.fillFrom_unbound done hlabel hnone, hfirst]
    · have bound : ∀ label, e.label? = some label → a.target? label ≠ none :=
        fun label hlabel hnone => unbound ⟨label, hlabel, hnone⟩
      have hfirst : firstUnbound? a.target? (e :: es) = firstUnbound? a.target? es := by
        cases hlabel : e.label? with
        | none => simp [firstUnbound?, hlabel]
        | some label => simp [firstUnbound?, hlabel, bound label hlabel]
      rw [a.fillFrom_bound done here bound, ih _ rest, hfirst, filled_cons, List.append_assoc]
      rfl

/-- The script that is built has the emitted instructions for its code, with the targets to which
their labels are bound; the first label that is not bound is reported. -/
theorem Recorded.build?_eq (h : Recorded a es)
    (jumping : ∀ e ∈ es, e.label? ≠ none → e.instruction.target? ≠ none) :
    a.build? = match firstUnbound? a.target? es with
      | some label => .error (.unboundLabel label.index)
      | none => .ok (a.finished es) := by
  have hcode : a.script.bytecode = (codeOf es).toArray := by rw [← h.code]
  have hfill : a.jumps.toList.foldlM a.fillIn a.script.bytecode = a.fillFrom [] es := by
    rw [h.waiting, hcode]
    rfl
  rw [Assembler.build?_eq, hfill, fillFrom_eq a [] jumping]
  cases firstUnbound? a.target? es <;> rfl

/-- Filling in labels leaves the length of the code as it is. -/
theorem Recorded.size_finished (h : Recorded a es) :
    (a.finished es).bytecode.size = a.script.bytecode.size := by
  rw [h.size_eq, finished]
  simp [codeOf, filled, Bytecode.encodeAll, List.length_flatMap, Function.comp_def]

/-- The code of a finished script is read from its start to its end. -/
theorem decodeMany_finished (a : Assembler) (es : List Emission) :
    Bytecode.decodeMany (a.finished es).bytecode (a.filled es).length 0
      = .ok (a.filled es, (a.finished es).bytecode.size) := by
  have whole : (a.finished es).bytecode.toList.drop 0 = encodeAll (a.filled es) ++ [] := by
    simp
  simpa [finished] using Bytecode.decodeMany_of_drop whole

/-! ## Runs of a new assembler -/

/-- Only jumps wait for labels. -/
theorem jumping_emissions {a : Assembler} {steps : List Step} :
    ∀ e ∈ a.emissions steps, e.label? ≠ none → e.instruction.target? ≠ none := by
  intro e he
  obtain ⟨⟨a, s⟩, -, he⟩ := List.mem_flatMap.1 he
  cases s with
  | raw i =>
    rw [List.mem_singleton.1 he]
    exact fun waits => absurd rfl waits
  | use u =>
    obtain ⟨i, hi, rfl⟩ := List.mem_map.1 he
    cases u with
    | branch label | branchGoto label | branchIfZero label =>
      rw [List.mem_singleton.1 hi]
      exact fun _ => Option.some_ne_none _
    | _ => exact fun waits => absurd rfl waits

/-- What waits are the jumps, in the order of the steps. -/
theorem label?_emissions (a : Assembler) (steps : List Step) :
    (a.emissions steps).filterMap Emission.label? = steps.filterMap Step.goal? := by
  have one : ∀ (a : Assembler) (s : Step),
      (Occasion.emits ⟨a, s⟩).filterMap Emission.label? = s.goal?.toList := by
    intro a s
    cases s with
    | raw i => rfl
    | use u =>
      cases u with
      | branch | branchGoto | branchIfZero => rfl
      | _ => simp [Occasion.emits, Step.goal?, Use.goal?]
  induction steps generalizing a with
  | nil => rfl
  | cons s rest ih =>
    have after := ih (a.step s)
    rw [emissions] at after
    rw [emissions, occasions, List.flatMap_cons, List.filterMap_append, after, one,
      List.filterMap_cons]
    cases s.goal? <;> rfl

/-- A label of a new assembler is bound where it was taken last. -/
theorem target?_run_start (name : String) (steps : List Step) (label : Label) :
    ((start name).run steps).target? label
      = (((start name).occasions steps).filter (Occasion.takes label)).getLast?.map
          (·.assembler.offset) := by
  rw [target?_run]
  exact Option.or_none

/-- A label of a new assembler is bound if it has been taken. -/
theorem isNone_target?_run (name : String) (steps : List Step) (label : Label) :
    (((start name).run steps).target? label).isNone
      = !((start name).occasions steps).any (Occasion.takes label) := by
  rw [target?_run_start, Option.isNone_map, Bool.eq_iff_iff]
  simp

/-- The first label that is not bound is the first that is used and never taken. -/
theorem firstUnbound?_run (name : String) (steps : List Step) :
    firstUnbound? ((start name).run steps).target? ((start name).emissions steps)
      = (steps.filterMap Step.goal?).find?
          fun label => !((start name).occasions steps).any (Occasion.takes label) := by
  unfold firstUnbound?
  rw [label?_emissions]
  congr 1
  funext label
  exact isNone_target?_run name steps label

/-- Building fails at this label, or else finishes the script. -/
theorem build?_run (name : String) (steps : List Step) :
    ((start name).run steps).build?
      = match (steps.filterMap Step.goal?).find?
          fun label => !((start name).occasions steps).any (Occasion.takes label) with
        | some label => .error (.unboundLabel label.index)
        | none =>
          .ok (((start name).run steps).finished ((start name).emissions steps)) := by
  have recorded := (Recorded.start name).run steps
  rw [recorded.build?_eq jumping_emissions, List.nil_append, firstUnbound?_run]

/-- A script is built when every label that is jumped to has been taken. -/
theorem build?_eq_ok_iff {name : String} {steps : List Step} {script : Script} :
    ((start name).run steps).build? = .ok script ↔
      (∀ label ∈ steps.filterMap Step.goal?,
        ((start name).occasions steps).any (Occasion.takes label)) ∧
      script = ((start name).run steps).finished ((start name).emissions steps) := by
  have unbound : (∀ label ∈ steps.filterMap Step.goal?,
      ((start name).occasions steps).any (Occasion.takes label)) ↔
      (steps.filterMap Step.goal?).find?
        (fun label => !((start name).occasions steps).any (Occasion.takes label)) = none := by
    rw [List.find?_eq_none]
    exact forall₂_congr fun _ _ => by simp
  rw [unbound, build?_run]
  split
  · rename_i label hfirst
    simp [hfirst]
  · rename_i hnone
    simp [hnone, eq_comm]

/-- The first jump to a label that has not been taken is reported. -/
theorem build?_eq_error_iff {name : String} {steps : List Step} {e : ScriptError} :
    ((start name).run steps).build? = .error e ↔
      ∃ label, (steps.filterMap Step.goal?).find?
          (fun label => !((start name).occasions steps).any (Occasion.takes label)) = some label ∧
        e = .unboundLabel label.index := by
  rw [build?_run]
  split
  · rename_i label hfirst
    simp [hfirst, eq_comm]
  · rename_i hnone
    simp [hnone]

/-- When every label that is jumped to has been taken, a jump to a label gets the place where that
was taken last. -/
theorem exists_last_taken {name : String} {steps : List Step}
    (taken : ∀ label ∈ steps.filterMap Step.goal?,
      ((start name).occasions steps).any (Occasion.takes label))
    {e : Emission} (he : e ∈ (start name).emissions steps) {label : Label}
    (hlabel : e.label? = some label) :
    ∃ o, (((start name).occasions steps).filter (Occasion.takes label)).getLast? = some o ∧
      ((start name).run steps).target? label = some o.assembler.offset := by
  have hgoal : label ∈ steps.filterMap Step.goal? := by
    rw [← label?_emissions (start name)]
    exact List.mem_filterMap.2 ⟨e, he, hlabel⟩
  have hbound := isNone_target?_run name steps label
  rw [taken label hgoal, target?_run_start, Option.isNone_map] at hbound
  rw [target?_run_start]
  obtain ⟨o, hlast⟩ := Option.isSome_iff_exists.1 (Option.isNone_eq_false_iff.1 hbound)
  exact ⟨o, hlast, by rw [hlast, Option.map_some]⟩

/-- As long as the code fits, a position is a word. -/
theorem toNat_offset {name : String} {steps : List Step} {o : Occasion}
    (fits : ((start name).run steps).script.bytecode.size < UInt32.size)
    (ho : o ∈ (start name).occasions steps) : o.assembler.offset.toNat = o.position := by
  have recorded := (Recorded.start name).run steps
  have inside := ((Recorded.start name).boundary ho).le
  rw [recorded.size_eq] at fits
  exact UInt32.toNat_ofNat_of_lt' (Nat.lt_of_le_of_lt inside fits)

/-- As long as the code fits, functions start between instructions. -/
theorem boundary_function {name : String} {steps : List Step}
    (fits : ((start name).run steps).script.bytecode.size < UInt32.size) :
    ∀ f ∈ ((start name).run steps).script.functions,
      Boundary (((start name).emissions steps).map Emission.instruction)
        f.offset.toNat := by
  intro f hf
  rw [← Array.mem_toList_iff, functions_run] at hf
  obtain ⟨o, ho, hdeclares⟩ := List.mem_filterMap.1 hf
  have hoffset : f.offset = o.assembler.offset := by
    unfold Occasion.declares? at hdeclares
    split at hdeclares
    · cases hdeclares
      rfl
    · cases hdeclares
  rw [hoffset, toNat_offset fits ho]
  exact (Recorded.start name).boundary ho

/-- As long as the code fits, labels are bound between instructions. -/
theorem boundary_target? {name : String} {steps : List Step} {label : Label} {target : UInt32}
    (fits : ((start name).run steps).script.bytecode.size < UInt32.size)
    (h : ((start name).run steps).target? label = some target) :
    Boundary (((start name).emissions steps).map Emission.instruction) target.toNat := by
  rw [target?_run_start] at h
  obtain ⟨o, hlast, rfl⟩ := Option.map_eq_some_iff.1 h
  have ho := (List.mem_filter.1 (List.mem_of_getLast? hlast)).1
  rw [toNat_offset fits ho]
  exact (Recorded.start name).boundary ho

/-! ## Runs of uses -/

/-- Using instructions and labels is a run of steps that are uses. -/
theorem run_uses (a : Assembler) (us : List Use) : a.run (us.map .use) = a.uses us :=
  List.foldl_map

/-- A run of uses emits the instructions that are used. -/
theorem instruction_emissions_uses (a : Assembler) (us : List Use) :
    (a.emissions (us.map .use)).map Emission.instruction = a.written us := by
  induction us generalizing a with
  | nil => rfl
  | cons u rest ih =>
    have after := ih (a.use u)
    rw [emissions] at after
    rw [written, ← after, emissions, List.map_cons, occasions, List.flatMap_cons, List.map_append,
      Occasion.emits, List.map_map]
    exact congrArg (· ++ _) (List.map_id _)

/-- Every jump that a use writes waits for a label. -/
theorem waiting_emissions {a : Assembler} {us : List Use} :
    ∀ e ∈ a.emissions (us.map .use), e.instruction.target? ≠ none → e.label? ≠ none := by
  intro e he
  obtain ⟨⟨a', s⟩, ho, he⟩ := List.mem_flatMap.1 he
  have hs : s ∈ us.map Step.use := by
    rw [← map_step_occasions a (us.map .use)]
    exact List.mem_map_of_mem ho
  obtain ⟨u, -, rfl⟩ := List.mem_map.1 hs
  obtain ⟨i, hi, rfl⟩ := List.mem_map.1 he
  cases u with
  | emit i' plain =>
    rw [List.mem_singleton.1 hi]
    exact fun hjump => absurd plain hjump
  | branch label | branchGoto label | branchIfZero label => exact fun _ => Option.some_ne_none _
  | pushString text =>
    simp only [writes, List.mem_cons, List.not_mem_nil, or_false] at hi
    rcases hi with rfl | rfl <;> exact fun hjump => absurd rfl hjump
  | call name argCount result =>
    simp only [writes, List.mem_append, List.mem_cons, List.not_mem_nil, or_false] at hi
    rcases hi with (rfl | rfl) | hi
    · exact fun hjump => absurd rfl hjump
    · exact fun hjump => absurd rfl hjump
    · split at hi
      · rw [List.mem_singleton.1 hi]
        exact fun hjump => absurd rfl hjump
      · cases hi
  | _ => cases hi

/-- A script that an assembler builds is laid out as it was written, with targets filled in. -/
theorem laidOut_build {name : String} {us : List Use} {script : Script}
    (fits : ((start name).uses us).script.bytecode.size < UInt32.size)
    (hbuild : ((start name).uses us).build? = .ok script) :
    ∃ l, SameButTargets ((start name).written us) l ∧ script.LaidOut l := by
  rw [← run_uses] at fits hbuild
  obtain ⟨taken, rfl⟩ := build?_eq_ok_iff.1 hbuild
  rw [← instruction_emissions_uses]
  have same := sameButTargets_filled ((start name).run (us.map .use))
    ((start name).emissions (us.map .use))
  refine ⟨_, same, rfl, fun f hf => (same.boundary_iff _).2 (boundary_function fits f hf), ?_⟩
  intro i hi target htarget
  obtain ⟨e, he, rfl⟩ := List.mem_map.1 hi
  rw [same.boundary_iff]
  unfold Emission.aimed at htarget
  split at htarget
  · rename_i bound hbound
    obtain ⟨label, hlabel, hbound⟩ := Option.bind_eq_some_iff.1 hbound
    have hjump := jumping_emissions e he (by rw [hlabel]; exact Option.some_ne_none _)
    rw [Instruction.target?_withTarget hjump] at htarget
    cases htarget
    exact boundary_target? fits hbound
  · rename_i hnone
    have hwaits := waiting_emissions e he (by rw [htarget]; exact Option.some_ne_none _)
    obtain ⟨label, hlabel⟩ := Option.ne_none_iff_exists'.1 hwaits
    obtain ⟨o, -, hbound⟩ := exists_last_taken taken he hlabel
    rw [hlabel, Option.bind_some, hbound] at hnone
    cases hnone

end Assembler

end SheepScene
