import SheepScene.Proofs.Sheep.Assembly

/-!
# How code is written

`Assembler.Step` is any call of an assembler, with whatever labels, `Assembler.occasions` are the
steps of a run, each with the assembler that it is made on, and `Occasion.emits` are the
instructions that it writes there.

A step enters what it needs in the tables and then writes (`Assembler.step_eq`). It adds what it
emits to the code and to the places that wait for labels and changes nothing else of them
(`Assembler.Recorded`), and a label is bound where it was taken last (`Assembler.target?_run`).
-/

set_option autoImplicit false

namespace SheepScene

open Bytecode (encodeAll startOf Boundary)

namespace Assembler

/-! ## Steps -/

/-- The label that a use jumps to. -/
def Use.goal? : Use → Option Label
  | .branch label | .branchGoto label | .branchIfZero label => some label
  | _ => none

/-- What is called on an assembler: a use, or the emission of an instruction as it is, be it a jump
that has its target already. -/
inductive Step where
  | use (u : Use)
  | raw (i : Instruction)

/-- The label that a step jumps to. -/
def Step.goal? : Step → Option Label
  | .use u => u.goal?
  | .raw _ => none

/-- The label that a step binds. -/
def Step.bound? : Step → Option Label
  | .use (.bind label) => some label
  | _ => none

/-- The assembler after a step. -/
def step (a : Assembler) : Step → Assembler
  | .use u => a.use u
  | .raw i => a.emit i

/-- The assembler after some steps. -/
def run (a : Assembler) (steps : List Step) : Assembler :=
  steps.foldl step a

/-- A step and the assembler that it is made on. -/
structure Occasion where
  assembler : Assembler
  step : Step

/-- The steps of a run, first to last. -/
def occasions (a : Assembler) : List Step → List Occasion
  | [] => []
  | s :: rest => ⟨a, s⟩ :: occasions (a.step s) rest

/-- An instruction that is written, and the label that is to give its target, if it is a jump to
one. -/
structure Emission where
  instruction : Instruction
  label? : Option Label

namespace Occasion

/-- The position of the assembler, in bytes. -/
def position (o : Occasion) : Nat :=
  o.assembler.script.bytecode.size

/-- What a step writes, one instruction after the other. -/
def emits (o : Occasion) : List Emission :=
  match o.step with
  | .use u => (o.assembler.writes u).map (⟨·, u.goal?⟩)
  | .raw i => [⟨i, none⟩]

/-- The function that a step declares. -/
def declares? (o : Occasion) : Option EntryPoint :=
  match o.step with
  | .use (.declareFunction name) => some { name, offset := o.assembler.offset }
  | _ => none

/-- Whether a step binds a label, of which the assembler must have one of that number. -/
def takes (label : Label) (o : Occasion) : Bool :=
  o.step.bound? = some label ∧ label.index < o.assembler.labels.size

end Occasion

/-- All that some steps write. -/
def emissions (a : Assembler) (steps : List Step) : List Emission :=
  (a.occasions steps).flatMap Occasion.emits

/-- Every step has its occasion. -/
theorem map_step_occasions (a : Assembler) (steps : List Step) :
    (a.occasions steps).map Occasion.step = steps := by
  induction steps generalizing a with
  | nil => rfl
  | cons s rest ih => rw [occasions, List.map_cons, ih]

/-! ## What a step does to the tables, and what it writes -/

/-- The assembler with what a step needs entered in its tables. -/
def prepare (a : Assembler) : Step → Assembler
  | .use (.internString text) | .use (.pushString text) => (a.internString text).2
  | .use (.declareVariable name initial) => (a.declareVariable name initial).2
  | .use (.internImport name argCount) | .use (.call name argCount _) =>
    (a.internImport name argCount).2
  | .use (.declareFunction name) => a.declareFunction name
  | .use .newLabel => a.newLabel.2
  | .use (.bind label) => a.bind label
  | _ => a

/-- Writes an instruction, which may have to wait for a label. -/
def write (a : Assembler) (e : Emission) : Assembler :=
  match e.label? with
  | none => a.emit e.instruction
  | some label => a.jump (fun _ => e.instruction) label

/-- A step enters what it needs in the tables and then writes. -/
theorem step_eq (a : Assembler) (s : Step) :
    a.step s = (Occasion.emits ⟨a, s⟩).foldl write (a.prepare s) := by
  cases s with
  | raw i => rfl
  | use u =>
    cases u with
    | call name argCount result => cases result <;> rfl
    | _ => rfl

/-- Writing changes the code and the places that wait only. -/
theorem foldl_write_frame (a : Assembler) (es : List Emission) :
    ∃ bytecode jumps,
      es.foldl write a = { a with script := { a.script with bytecode }, jumps } := by
  induction es generalizing a with
  | nil => exact ⟨_, _, rfl⟩
  | cons e es ih =>
    obtain ⟨bytecode, jumps, hrest⟩ := ih (a.write e)
    refine ⟨bytecode, jumps, ?_⟩
    rw [List.foldl_cons, hrest, write]
    split <;> rfl

/-- The tables after a step are those that it has prepared. -/
theorem step_frame (a : Assembler) (s : Step) :
    ∃ bytecode jumps,
      a.step s = { a.prepare s with script := { (a.prepare s).script with bytecode }, jumps } := by
  rw [step_eq]
  exact foldl_write_frame (a.prepare s) _

/-- Entering a text changes the string table only. -/
theorem internString_frame (a : Assembler) (text : String) :
    ∃ strings, (a.internString text).2 = { a with script := { a.script with strings } } := by
  unfold Assembler.internString
  split
  · exact ⟨_, rfl⟩
  · exact ⟨_, rfl⟩

/-- Entering an import changes the imports only. -/
theorem internImport_frame (a : Assembler) (name : String) (argCount : UInt32) :
    ∃ imports,
      (a.internImport name argCount).2 = { a with script := { a.script with imports } } := by
  unfold Assembler.internImport
  split
  · exact ⟨_, rfl⟩
  · exact ⟨_, rfl⟩

/-- The labels after a step: it makes or binds the label that it says. -/
def labelsAfter (a : Assembler) : Step → Array (Option UInt32)
  | .use .newLabel => a.labels.push none
  | .use (.bind label) => a.labels.setIfInBounds label.index (some a.offset)
  | _ => a.labels

/-- What is entered for a step: tables of texts, variables and imports, the function that it
declares and the label that it makes or binds. The code and the places that wait are left alone. -/
theorem prepare_frame (a : Assembler) (s : Step) :
    ∃ strings vars imports functions,
      a.prepare s = { a with
        script := { a.script with strings, vars, imports, functions }, labels := a.labelsAfter s } ∧
      functions.toList = a.script.functions.toList ++ (Occasion.declares? ⟨a, s⟩).toList := by
  have unchanged : a.script.functions.toList = a.script.functions.toList ++ [] :=
    (List.append_nil _).symm
  cases s with
  | raw i => exact ⟨_, _, _, _, rfl, unchanged⟩
  | use u =>
    cases u with
    | internString text | pushString text =>
      obtain ⟨strings, h⟩ := a.internString_frame text
      exact ⟨_, _, _, _, h, unchanged⟩
    | internImport name argCount | call name argCount result =>
      obtain ⟨imports, h⟩ := a.internImport_frame name argCount
      exact ⟨_, _, _, _, h, unchanged⟩
    | declareFunction name => exact ⟨_, _, _, _, rfl, Array.toList_push⟩
    | _ => exact ⟨_, _, _, _, rfl, unchanged⟩

/-- A step adds the function that it declares. -/
theorem functions_step (a : Assembler) (s : Step) :
    (a.step s).script.functions.toList
      = a.script.functions.toList ++ (Occasion.declares? ⟨a, s⟩).toList := by
  obtain ⟨bytecode, jumps, hstep⟩ := a.step_frame s
  obtain ⟨strings, vars, imports, functions, hprepare, hfunctions⟩ := a.prepare_frame s
  rw [hstep, hprepare]
  exact hfunctions

/-- A step leaves the labels that it should. -/
theorem labels_step (a : Assembler) (s : Step) : (a.step s).labels = a.labelsAfter s := by
  obtain ⟨bytecode, jumps, hstep⟩ := a.step_frame s
  obtain ⟨strings, vars, imports, functions, hprepare, -⟩ := a.prepare_frame s
  rw [hstep, hprepare]

/-- The steps that make a label. -/
def Step.makesLabel : Step → Bool
  | .use .newLabel => true
  | _ => false

/-- A step leaves one label more if it makes one. -/
theorem size_labels_step (a : Assembler) (s : Step) :
    (a.step s).labels.size = a.labels.size + s.makesLabel.toNat := by
  rw [labels_step]
  cases s with
  | raw i => rfl
  | use u =>
    cases u with
    | newLabel => exact Array.size_push none
    | bind label => exact Array.size_setIfInBounds
    | _ => rfl

/-- A label that has just been made is not bound, as it was when it was not there. -/
theorem target?_newLabel (a : Assembler) (label : Label) :
    a.newLabel.2.target? label = a.target? label := by
  unfold target? newLabel
  rw [Array.getElem?_push]
  split
  · rename_i h
    simp [h]
  · rfl

/-- Binding a label binds that label only, and only if the assembler has one of its number. -/
theorem target?_bind (a : Assembler) (bound label : Label) :
    (a.bind bound).target? label
      = if bound = label ∧ label.index < a.labels.size then some a.offset
        else a.target? label := by
  unfold target? bind
  rw [Array.getElem?_setIfInBounds]
  by_cases hnumber : bound.index = label.index
  · obtain rfl : bound = label := by
      cases bound
      cases label
      exact congrArg Label.mk hnumber
    by_cases hthere : bound.index < a.labels.size <;> simp [hthere]
  · have hne : bound ≠ label := fun h => hnumber (congrArg Label.index h)
    simp [hnumber, hne]

/-- A step that takes a label binds it to the current position, and any other leaves it where it
is. -/
theorem target?_step (a : Assembler) (s : Step) (label : Label) :
    (a.step s).target? label
      = if Occasion.takes label ⟨a, s⟩ then some a.offset else a.target? label := by
  have same : ∀ a' : Assembler, (a.step s).labels = a'.labels →
      (a.step s).target? label = a'.target? label := fun a' h => by rw [target?, target?, h]
  cases s with
  | raw i => simpa [Occasion.takes, Step.bound?] using same a (a.labels_step _)
  | use u =>
    cases u with
    | newLabel =>
      simpa [Assembler.step, use, Occasion.takes, Step.bound?] using a.target?_newLabel label
    | bind bound =>
      simpa [Assembler.step, use, Occasion.takes, Step.bound?] using a.target?_bind bound label
    | _ => simpa [Occasion.takes, Step.bound?] using same a (a.labels_step _)

/-! ## The code so far -/

variable {a : Assembler} {es : List Emission}

/-- The bytes of emissions. -/
def codeOf (es : List Emission) : List UInt8 :=
  encodeAll (es.map Emission.instruction)

/-- The code of emissions one after the other. -/
@[simp] theorem codeOf_append (es es' : List Emission) :
    codeOf (es ++ es') = codeOf es ++ codeOf es' := by
  simp [codeOf]

/-- The operands that wait for a label, with their labels, when emissions are written from a
position on. -/
def places (start : Nat) : List Emission → List (Nat × Label)
  | [] => []
  | e :: rest =>
    (e.label?.map (start + 1, ·)).toList ++ places (start + e.instruction.size) rest

/-- An emission with a label has its place right after the opcode. -/
theorem places_of_label? (start : Nat) {e : Emission} {label : Label}
    (hlabel : e.label? = some label) (es : List Emission) :
    places start (e :: es) = (start + 1, label) :: places (start + e.instruction.size) es := by
  rw [places, hlabel]
  rfl

/-- Places in emissions one after the other. -/
theorem places_append (start : Nat) (es es' : List Emission) :
    places start (es ++ es') = places start es ++ places (start + (codeOf es).length) es' := by
  induction es generalizing start with
  | nil => simp [places, codeOf]
  | cons e es ih => simp [places, ih, codeOf, Nat.add_assoc]

/-- What is known of an assembler that has written `es`. -/
structure Recorded (a : Assembler) (es : List Emission) : Prop where
  code : a.script.bytecode.toList = codeOf es
  waiting : a.jumps.toList = places 0 es

namespace Recorded

/-- The recorded emissions are as long as the code. -/
theorem size_eq (h : Recorded a es) : a.script.bytecode.size = (codeOf es).length := by
  rw [← h.code, Array.length_toList]

/-- At the start nothing is emitted. -/
theorem start (name : String) : Recorded (start name) [] where
  code := rfl
  waiting := rfl

/-- What is written is recorded. -/
theorem write (h : Recorded a es) (e : Emission) : Recorded (a.write e) (es ++ [e]) where
  code := by
    unfold Assembler.write
    split <;> simp [Assembler.jump, Assembler.emit, h.code, codeOf]
  waiting := by
    unfold Assembler.write
    split
    · rename_i hlabel
      simp [Assembler.emit, h.waiting, places_append, places, hlabel]
    · rename_i hlabel
      simp [Assembler.jump, Assembler.emit, h.waiting, places_append, places, hlabel, h.size_eq]

/-- All that is written in turn is recorded. -/
theorem writeAll (h : Recorded a es) (es' : List Emission) :
    Recorded (es'.foldl Assembler.write a) (es ++ es') := by
  induction es' generalizing a es with
  | nil => simpa using h
  | cons e es' ih => simpa using ih (h.write e)

/-- What is emitted in a step is recorded. -/
theorem step (h : Recorded a es) (s : Step) :
    Recorded (a.step s) (es ++ Occasion.emits ⟨a, s⟩) := by
  obtain ⟨strings, vars, imports, functions, hprepare, -⟩ := a.prepare_frame s
  have prepared : Recorded (a.prepare s) es := by
    rw [hprepare]
    exact ⟨h.code, h.waiting⟩
  rw [step_eq]
  exact prepared.writeAll _

/-- What is emitted in a run of steps is recorded. -/
theorem run (h : Recorded a es) (steps : List Step) :
    Recorded (a.run steps) (es ++ a.emissions steps) := by
  induction steps generalizing a es with
  | nil => simpa [Assembler.run, occasions, emissions] using h
  | cons s rest ih => simpa [Assembler.run, occasions, emissions] using ih (h.step s)

/-- At every step the assembler stands between two instructions of those that are written in the
end. -/
theorem boundary (h : Recorded a es) {steps : List Step} {o : Occasion}
    (ho : o ∈ a.occasions steps) :
    Boundary ((es ++ a.emissions steps).map Emission.instruction) o.position := by
  induction steps generalizing a es with
  | nil => cases ho
  | cons s rest ih =>
    rcases List.mem_cons.1 ho with rfl | ho
    · rw [List.map_append, Occasion.position, h.size_eq]
      exact (Bytecode.boundary_end _).append _
    · simpa [emissions, occasions] using ih (h.step s) ho

end Recorded

/-- Functions are those that were there and those that are declared, in order. -/
theorem functions_run (a : Assembler) (steps : List Step) :
    (a.run steps).script.functions.toList
      = a.script.functions.toList ++ (a.occasions steps).filterMap Occasion.declares? := by
  induction steps generalizing a with
  | nil => simp [run, occasions]
  | cons s rest ih =>
    have after : (a.run (s :: rest)).script.functions.toList = _ := ih (a.step s)
    rw [after, functions_step, List.append_assoc, occasions, List.filterMap_cons]
    cases Occasion.declares? ⟨a, s⟩ <;> rfl

/-- A label is bound where it was taken last. -/
theorem target?_run (a : Assembler) (steps : List Step) (label : Label) :
    (a.run steps).target? label
      = (((a.occasions steps).filter (Occasion.takes label)).getLast?.map
          (·.assembler.offset)).or (a.target? label) := by
  induction steps generalizing a with
  | nil => simp [run, occasions]
  | cons s rest ih =>
    have after : (a.run (s :: rest)).target? label = _ := ih (a.step s)
    rw [after, target?_step, occasions, List.filter_cons]
    split
    · rw [List.getLast?_cons]
      cases ((a.step s).occasions rest |>.filter (Occasion.takes label)).getLast? <;> rfl
    · rfl

end Assembler

end SheepScene
