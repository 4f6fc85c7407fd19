import SheepScene.Proofs.Sheep.Filling

/-!
# Tables that are entered once

Texts, variables and imports (`Entry`) are known by their places in the tables of a script, and an
assembler hands these out, and writes them into the code, while more is still to be entered. All
entering is of one form (`Tables.enter`): what is there already is found, and what is new is put at
the end. So tables only grow (`Tables.Extends`), texts and imports stay apart (`Tables.Interned`),
and what has been handed out designates the same in the script that is built
(`tables_are_interned`).
-/

set_option autoImplicit false

namespace SheepScene

/-! ## Looking up or entering -/

/-- The place of an entry that a table has, or of a new one at its end, and the table with it. -/
def enterOnce {α : Type} (table : Array α) (known : α → Bool) (x : α) : Nat × Array α :=
  match table.findIdx? known with
  | some i => (i, table)
  | none => (table.size, table.push x)

section

variable {α : Type} (table : Array α) (known : α → Bool) (x : α)

/-- All entries keep their places. -/
theorem kept_enterOnce : table.toList <+: (enterOnce table known x).2.toList := by
  unfold enterOnce
  split
  · exact List.prefix_refl _
  · rw [Array.toList_push]
    exact List.prefix_append ..

/-- At the place stands the new entry, or one that is known for it. -/
theorem exists_of_enterOnce :
    ∃ y, (enterOnce table known x).2[(enterOnce table known x).1]? = some y ∧
      (y = x ∨ known y) := by
  unfold enterOnce
  split
  · rename_i i hfound
    obtain ⟨hi, hknown, -⟩ := Array.findIdx?_eq_some_iff_getElem.1 hfound
    exact ⟨table[i], Array.getElem?_eq_getElem hi, .inr hknown⟩
  · exact ⟨x, Array.getElem?_push_size, .inl rfl⟩

/-- Entries that are apart stay so, if the new one is apart from those that are not known for
it. -/
theorem pairwise_enterOnce {apart : α → α → Prop} (h : table.toList.Pairwise apart)
    (unknown : ∀ y, known y = false → apart y x) :
    (enterOnce table known x).2.toList.Pairwise apart := by
  unfold enterOnce
  split
  · exact h
  · rename_i hnone
    rw [Array.toList_push, List.pairwise_append]
    refine ⟨h, List.pairwise_singleton .., fun y hy z hz => ?_⟩
    rw [List.mem_singleton.1 hz]
    exact unknown y (Array.findIdx?_eq_none_iff.1 hnone y (Array.mem_toList_iff.1 hy))

end

/-! ## Tables -/

/-- The tables of a script that its code refers to by index. -/
structure Tables where
  strings : Array String
  vars : Array Variable
  imports : Array Import

def Script.tables (s : Script) : Tables :=
  ⟨s.strings, s.vars, s.imports⟩

/-- What is entered in the tables. -/
inductive Entry where
  | string (text : String)
  | var (declared : Variable)
  | host (wanted : Import)

/-- Imports with the same count and, up to case, the same name. -/
def Import.matches (f g : Import) : Bool :=
  Text.sameName f.name g.name && f.argCount == g.argCount

namespace Tables

/-- The place of an entry and the tables with it. A variable is always a new one. -/
def enter (t : Tables) : Entry → Nat × Tables
  | .string text =>
    let (i, strings) := enterOnce t.strings (· == text) text
    (i, { t with strings })
  | .var declared =>
    let (i, vars) := enterOnce t.vars (fun _ => false) declared
    (i, { t with vars })
  | .host wanted =>
    let (i, imports) := enterOnce t.imports (·.matches wanted) wanted
    (i, { t with imports })

/-- What stands at a place: this text, this variable, or an import that matches. -/
def Has (t : Tables) (i : Nat) : Entry → Prop
  | .string text => t.strings[i]? = some text
  | .var declared => t.vars[i]? = some declared
  | .host wanted => ∃ f, t.imports[i]? = some f ∧ f.matches wanted

/-- No text is there twice, and no two imports match. -/
structure Interned (t : Tables) : Prop where
  strings : t.strings.toList.Nodup
  imports : t.imports.toList.Pairwise fun f g => ¬ f.matches g

/-- Places are words. -/
structure Fits (t : Tables) : Prop where
  strings : t.strings.size < UInt32.size
  vars : t.vars.size < UInt32.size
  imports : t.imports.size < UInt32.size

/-- All of the tables is in the other ones, at the same places. -/
structure Extends (t t' : Tables) : Prop where
  strings : t.strings.toList <+: t'.strings.toList
  vars : t.vars.toList <+: t'.vars.toList
  imports : t.imports.toList <+: t'.imports.toList

variable {t t' t'' : Tables}

/-- Extending tables is reflexive. -/
theorem Extends.refl (t : Tables) : Extends t t :=
  ⟨List.prefix_refl _, List.prefix_refl _, List.prefix_refl _⟩

/-- Extending tables is transitive. -/
theorem Extends.trans (h : Extends t t') (h' : Extends t' t'') : Extends t t'' :=
  ⟨h.strings.trans h'.strings, h.vars.trans h'.vars, h.imports.trans h'.imports⟩

/-- What stands at a place stays there. -/
theorem Extends.has (h : Extends t t') {i : Nat} {e : Entry} (he : t.Has i e) : t'.Has i e := by
  have kept : ∀ {α : Type} {l l' : Array α} {x : α}, l.toList <+: l'.toList → l[i]? = some x →
      l'[i]? = some x := by
    rintro α l l' x ⟨new, hnew⟩ hx
    rw [← Array.getElem?_toList] at hx ⊢
    rw [← hnew, List.getElem?_append_left (List.getElem?_eq_some_iff.1 hx).1, hx]
  cases e with
  | string text => exact kept h.strings he
  | var declared => exact kept h.vars he
  | host wanted =>
    obtain ⟨f, hf, hmatches⟩ := he
    exact ⟨f, kept h.imports hf, hmatches⟩

/-- If an extension fits into indices the tables do. -/
theorem Extends.fits (h : Extends t t') (fits : t'.Fits) : t.Fits :=
  ⟨Nat.lt_of_le_of_lt h.strings.length_le fits.strings,
    Nat.lt_of_le_of_lt h.vars.length_le fits.vars,
    Nat.lt_of_le_of_lt h.imports.length_le fits.imports⟩

/-- Entering something extends the tables. -/
theorem extends_enter (t : Tables) (e : Entry) : Extends t (t.enter e).2 := by
  cases e with
  | string text => exact ⟨kept_enterOnce .., List.prefix_refl _, List.prefix_refl _⟩
  | var declared => exact ⟨List.prefix_refl _, kept_enterOnce .., List.prefix_refl _⟩
  | host wanted => exact ⟨List.prefix_refl _, List.prefix_refl _, kept_enterOnce ..⟩

/-- Tables have what was entered, where they say. -/
theorem has_enter (t : Tables) (e : Entry) : (t.enter e).2.Has (t.enter e).1 e := by
  cases e with
  | string text =>
    obtain ⟨y, hy, rfl | hknown⟩ := exists_of_enterOnce t.strings (· == text) text
    · exact hy
    · rw [beq_iff_eq] at hknown
      subst hknown
      exact hy
  | var declared =>
    obtain ⟨y, hy, rfl | hknown⟩ := exists_of_enterOnce t.vars (fun _ => false) declared
    · exact hy
    · cases hknown
  | host wanted =>
    obtain ⟨y, hy, rfl | hknown⟩ := exists_of_enterOnce t.imports (·.matches wanted) wanted
    · exact ⟨_, hy, by simp [Import.matches, Text.sameName]⟩
    · exact ⟨y, hy, hknown⟩

/-- Entering something does not make an entry come twice. -/
theorem Interned.enter (h : t.Interned) (e : Entry) : (t.enter e).2.Interned := by
  cases e with
  | string text =>
    exact ⟨pairwise_enterOnce _ _ _ h.strings fun y hy => by simpa using hy, h.imports⟩
  | var declared => exact ⟨h.strings, h.imports⟩
  | host wanted =>
    exact ⟨h.strings, pairwise_enterOnce _ _ _ h.imports fun y hy => by simp [hy]⟩

/-- Where tables fit, an entry has an index. -/
theorem Has.lt_size (fits : t.Fits) {i : Nat} {e : Entry} (he : t.Has i e) : i < UInt32.size := by
  have inside : ∀ {α : Type} {l : Array α} {x : α}, l.size < UInt32.size → l[i]? = some x →
      i < UInt32.size := fun hl hx => Nat.lt_trans (Array.getElem?_eq_some_iff.1 hx).1 hl
  cases e with
  | string text => exact inside fits.strings he
  | var declared => exact inside fits.vars he
  | host wanted =>
    obtain ⟨f, hf, -⟩ := he
    exact inside fits.imports hf

end Tables

namespace Assembler

/-! ## Steps -/

/-- What a step looks up or enters. -/
def Step.entry? : Step → Option Entry
  | .use (.internString text) | .use (.pushString text) => some (.string text)
  | .use (.declareVariable name initial) => some (.var { name, initial })
  | .use (.internImport name argCount) | .use (.call name argCount _) =>
    some (.host { name, argCount })
  | _ => none

/-- The assembler with an entry, and the index of that. -/
def entered (a : Assembler) : Entry → UInt32 × Assembler
  | .string text => a.internString text
  | .var declared => a.declareVariable declared.name declared.initial
  | .host wanted => a.internImport wanted.name wanted.argCount

/-- What a step hands out an index for, and the index. -/
def Occasion.handsOut? (o : Occasion) : Option (Entry × UInt32) :=
  o.step.entry?.map fun e => (e, (o.assembler.entered e).1)

/-- Entering something into a script is entering it into its tables. -/
theorem entered_eq (a : Assembler) (e : Entry) :
    (a.entered e).1 = UInt32.ofNat (a.script.tables.enter e).1 ∧
    (a.entered e).2.script.tables = (a.script.tables.enter e).2 := by
  cases e with
  | string text =>
    cases h : a.script.strings.findIdx? (· == text) <;>
      simp only [entered, internString, Tables.enter, enterOnce, Script.tables, h, and_self]
  | var declared =>
    have new : a.script.vars.findIdx? (fun _ => false) = none := by simp
    simp only [entered, declareVariable, Tables.enter, enterOnce, Script.tables, new,
      and_self]
  | host wanted =>
    cases h : a.script.imports.findIdx?
        fun f => Text.sameName f.name wanted.name && f.argCount == wanted.argCount <;>
      simp only [entered, internImport, Tables.enter, enterOnce, Script.tables, Import.matches, h,
        and_self]

/-- A step leaves the tables alone, or enters what it needs. -/
theorem tables_step (a : Assembler) (s : Step) :
    (a.step s).script.tables = match s.entry? with
      | some e => (a.script.tables.enter e).2
      | none => a.script.tables := by
  obtain ⟨bytecode, jumps, h⟩ := a.step_frame s
  have prepared : (a.step s).script.tables = (a.prepare s).script.tables := by
    rw [h]
    rfl
  rw [prepared]
  cases s with
  | raw i => rfl
  | use u =>
    cases u with
    | internString text | pushString text => exact (a.entered_eq (.string text)).2
    | declareVariable name initial => exact (a.entered_eq (.var { name, initial })).2
    | internImport name argCount | call name argCount _ =>
      exact (a.entered_eq (.host { name, argCount })).2
    | _ => rfl

/-- A step extends the tables. -/
theorem extends_step (a : Assembler) (s : Step) :
    a.script.tables.Extends (a.step s).script.tables := by
  rw [tables_step]
  split
  · exact Tables.extends_enter ..
  · exact .refl _

/-- A run of steps extends the tables. -/
theorem extends_run (a : Assembler) (steps : List Step) :
    a.script.tables.Extends (a.run steps).script.tables := by
  induction steps generalizing a with
  | nil => exact .refl _
  | cons s rest ih => exact (a.extends_step s).trans (ih (a.step s))

/-- No entry comes twice after a run of steps. -/
theorem interned_run {a : Assembler} (h : a.script.tables.Interned) (steps : List Step) :
    (a.run steps).script.tables.Interned := by
  induction steps generalizing a with
  | nil => exact h
  | cons s rest ih =>
    refine ih ?_
    rw [tables_step]
    split
    · exact h.enter _
    · exact h

/-- What a step hands out an index for stands there in the end. -/
theorem has_of_handsOut? {a : Assembler} {steps : List Step}
    (fits : (a.run steps).script.tables.Fits) {o : Occasion} (ho : o ∈ a.occasions steps)
    {e : Entry} {i : UInt32} (h : o.handsOut? = some (e, i)) :
    (a.run steps).script.tables.Has i.toNat e := by
  induction steps generalizing a with
  | nil => cases ho
  | cons s rest ih =>
    rcases List.mem_cons.1 ho with rfl | ho
    · obtain ⟨e', he, hi⟩ := Option.map_eq_some_iff.1 h
      cases hi
      have entered : (a.step s).script.tables = (a.script.tables.enter e).2 := by
        rw [tables_step, he]
      have stands : (a.run (s :: rest)).script.tables.Has (a.script.tables.enter e).1 e := by
        refine (extends_run (a.step s) rest).has ?_
        rw [entered]
        exact Tables.has_enter ..
      rw [(a.entered_eq e).1, UInt32.toNat_ofNat_of_lt' (stands.lt_size fits)]
      exact stands
    · exact ih fits ho

/-- No entry comes twice at the start. -/
theorem interned_start (name : String) : (start name).script.tables.Interned :=
  ⟨List.nodup_nil, .nil⟩

end Assembler

open Assembler

/-- In the tables of a script that has been built no text is twice, and no two imports have the same
count and, up to case, the same name. Every index that was handed out for a text, a variable or an
import, or written into the code for it, still designates it there, and texts have been given the
same index exactly when they are equal. -/
theorem tables_are_interned {name : String} {steps : List Step} {script : Script}
    (hbuild : ((start name).run steps).build? = .ok script) (fits : script.tables.Fits) :
    script.tables.Interned ∧
    (∀ o ∈ (start name).occasions steps, ∀ e i, o.handsOut? = some (e, i) →
      script.tables.Has i.toNat e) ∧
    ∀ o ∈ (start name).occasions steps, ∀ o' ∈ (start name).occasions steps, ∀ text text' i i',
      o.handsOut? = some (.string text, i) → o'.handsOut? = some (.string text', i') →
        (i = i' ↔ text = text') := by
  obtain ⟨-, rfl⟩ := build?_eq_ok_iff.1 hbuild
  have interned := interned_run (interned_start name) steps
  have designates := @has_of_handsOut? (start name) steps fits
  refine ⟨interned, fun o ho e i h => designates ho h, ?_⟩
  intro o ho o' ho' text text' i i' h h'
  have stands := designates ho h
  have stands' := designates ho' h'
  simp only [Tables.Has, ← Array.getElem?_toList] at stands stands'
  constructor
  · rintro rfl
    exact Option.some.inj (stands.symm.trans stands')
  · rintro rfl
    have inside := (List.getElem?_eq_some_iff.1 stands).1
    exact UInt32.toNat_inj.1
      ((List.getElem?_inj inside interned.strings).1 (stands.trans stands'.symm))

/-- A text and an import that are wanted twice, the import in another case. -/
def greetingSteps : List Step :=
  [.use (.pushString "hi"), .use (.call "PrintString" 1 none), .use (.internString "bye"),
    .use (.pushString "hi"), .use (.call "printstring" 1 none)]

/-- The second greeting has the text and the import of the first one. -/
theorem tables_are_interned_greeting :
    ∃ script, ((start "greeting").run greetingSteps).build? = .ok script ∧ script.tables.Fits ∧
      script.strings = #["hi", "bye"] ∧ script.imports = #[⟨"PrintString", 1⟩] ∧
      script.tables.Interned ∧
      ∃ o ∈ (start "greeting").occasions greetingSteps,
        o.handsOut? = some (.host ⟨"printstring", 1⟩, 0) ∧
        script.tables.Has 0 (.host ⟨"printstring", 1⟩) := by
  have built : ((start "greeting").run greetingSteps).build? = .ok
      (((start "greeting").run greetingSteps).finished
        ((start "greeting").emissions greetingSteps)) :=
    build?_eq_ok_iff.2 ⟨by simp [greetingSteps, Step.goal?, Use.goal?], rfl⟩
  have fits : ((start "greeting").run greetingSteps).script.tables.Fits :=
    ⟨by decide +kernel, by decide +kernel, by decide +kernel⟩
  obtain ⟨interned, designates, -⟩ := tables_are_interned built fits
  refine ⟨_, built, fits, by decide +kernel, by decide +kernel, interned, ?_⟩
  have index : (((start "greeting").run (greetingSteps.take 4)).internImport "printstring" 1).1
      = 0 := by decide +kernel
  have wanted : Occasion.handsOut?
      ⟨(start "greeting").run (greetingSteps.take 4), .use (.call "printstring" 1 none)⟩
      = some (.host ⟨"printstring", 1⟩, 0) :=
    congrArg (fun i => some (Entry.host ⟨"printstring", 1⟩, i)) index
  have last : ⟨(start "greeting").run (greetingSteps.take 4), .use (.call "printstring" 1 none)⟩
      ∈ (start "greeting").occasions greetingSteps := List.mem_of_getElem? (i := 4) rfl
  exact ⟨_, last, wanted, designates _ last _ _ wanted⟩

end SheepScene
