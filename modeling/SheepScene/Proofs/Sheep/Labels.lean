import Mathlib.Data.List.Forall2
import SheepScene.Proofs.Sheep.Filling

/-!
# Where labels lead

An assembler knows a label by its number alone. When all labels are its own
(`Assembler.OwnLabels`), a script is built if every label that is jumped to has been bound, and
each jump goes to where its label was bound last (`labels_are_resolved`).

A label of another assembler is a label of the same number to this one
(`foreign_labels_go_by_number`): it is reported only while that number is not bound here, and
otherwise the jump goes to a label of this assembler (`foreign_label_may_pass`).
-/

set_option autoImplicit false

namespace SheepScene

namespace Assembler

/-! ## Labels of its own -/

/-- All labels that the steps of a run are given have been made by the same assembler before. -/
def OwnLabels (os : List Occasion) : Prop :=
  ∀ o ∈ os, ∀ label ∈ o.step.bound?.or o.step.goal?, label.index < o.assembler.labels.size

instance (os : List Occasion) : Decidable (OwnLabels os) :=
  inferInstanceAs (Decidable (∀ o ∈ os, ∀ label ∈ o.step.bound?.or o.step.goal?,
    label.index < o.assembler.labels.size))

/-- Where a label was bound last, in bytes from the start of the code. -/
def boundAt? (os : List Occasion) (label : Label) : Option Nat :=
  (os.filter fun o => o.step.bound? = some label).getLast?.map Occasion.position

/-- What becomes of an emission: a jump to a label gets the place of the label for its target, and
everything else stays as it is. -/
def Emission.Becomes (place? : Label → Option Nat) (e : Emission) (i : Instruction) : Prop :=
  match e.label? with
  | none => i = e.instruction
  | some label =>
    ∃ target, place? label = some target.toNat ∧ i = e.instruction.withTarget target

namespace OwnLabels

/-- A label of its own is taken whenever it is bound. -/
theorem takes_iff {os : List Occasion} (own : OwnLabels os) {o : Occasion} (ho : o ∈ os)
    (label : Label) : o.takes label ↔ o.step.bound? = some label := by
  simp only [Occasion.takes, decide_eq_true_eq, and_iff_left_iff_imp]
  exact fun h => own o ho label (by simp [h])

/-- Where labels are its own, a builder takes those that are bound. -/
theorem filter_takes {os : List Occasion} (own : OwnLabels os) (label : Label) :
    os.filter (Occasion.takes label) = os.filter fun o => o.step.bound? = some label := by
  refine List.filter_congr fun o ho => ?_
  rw [Bool.eq_iff_iff, own.takes_iff ho, decide_eq_true_eq]

variable {name : String} {steps : List Step}

/-- A label is taken on some occasion if it is bound in some step. -/
theorem any_takes (own : OwnLabels ((start name).occasions steps)) (label : Label) :
    ((start name).occasions steps).any (Occasion.takes label)
      = steps.any (·.bound? = some label) := by
  conv_rhs => rw [← map_step_occasions (start name) steps, List.any_map]
  rw [Bool.eq_iff_iff, List.any_eq_true, List.any_eq_true]
  refine exists_congr fun o => and_congr_right fun ho => ?_
  rw [own.takes_iff ho, Function.comp_apply, decide_eq_true_eq]

/-- When every label that is jumped to is taken, the targets that are filled in are the places where
the labels were bound last. -/
theorem becomes_aimed (own : OwnLabels ((start name).occasions steps))
    (fits : ((start name).run steps).script.bytecode.size < UInt32.size)
    (taken : ∀ label ∈ steps.filterMap Step.goal?,
      ((start name).occasions steps).any (Occasion.takes label)) :
    ∀ e ∈ (start name).emissions steps,
      e.Becomes (boundAt? ((start name).occasions steps))
        (e.aimed ((start name).run steps).target?) := by
  intro e he
  unfold Emission.Becomes Emission.aimed
  cases hlabel : e.label? with
  | none => rfl
  | some label =>
    obtain ⟨o, hlast, htarget⟩ := exists_last_taken taken he hlabel
    have ho := (List.mem_filter.1 (List.mem_of_getLast? hlast)).1
    rw [own.filter_takes] at hlast
    simpa [boundAt?, hlast, htarget] using ⟨o.assembler.offset, (toNat_offset fits ho).symm, rfl⟩

end OwnLabels

end Assembler

open Assembler

/-- An assembler that is given labels of its own builds a script exactly when every label that is
jumped to has been bound, at any time, and else reports the first jump whose label has not. The code
of the script is read as the emitted instructions in their order, each jump to a label with the
place where that was bound last and every other instruction as it was emitted; the functions are
those that were declared, at the places where they were. -/
theorem labels_are_resolved {name : String} {steps : List Step}
    (own : OwnLabels ((start name).occasions steps))
    (fits : ((start name).run steps).script.bytecode.size < UInt32.size) :
    ((∃ script, ((start name).run steps).build? = .ok script) ↔
      ∀ label ∈ steps.filterMap Step.goal?, ∃ s ∈ steps, s.bound? = some label) ∧
    (∀ e, ((start name).run steps).build? = .error e ↔
      ∃ label, (steps.filterMap Step.goal?).find? (fun label => !steps.any (·.bound? = some label))
          = some label ∧ e = .unboundLabel label.index) ∧
    ∀ script, ((start name).run steps).build? = .ok script →
      (∃ l, Bytecode.decodeMany script.bytecode l.length 0 = .ok (l, script.bytecode.size) ∧
        List.Forall₂ (Emission.Becomes (boundAt? ((start name).occasions steps)))
          ((start name).emissions steps) l) ∧
      script.functions.toList = ((start name).occasions steps).filterMap Occasion.declares? ∧
      ∀ o ∈ (start name).occasions steps, o.assembler.offset.toNat = o.position := by
  refine ⟨?_, ?_, ?_⟩
  · simp only [build?_eq_ok_iff, own.any_takes, exists_and_left, exists_eq, and_true]
    exact forall₂_congr fun _ _ => by simp
  · intro e
    simp only [build?_eq_error_iff, own.any_takes]
  · intro script hbuild
    obtain ⟨taken, rfl⟩ := build?_eq_ok_iff.1 hbuild
    refine ⟨⟨_, decodeMany_finished _ _, ?_⟩, ?_, fun o ho => toNat_offset fits ho⟩
    · rw [filled, List.forall₂_map_right_iff, List.forall₂_same]
      exact own.becomes_aimed fits taken
    · exact functions_run (start name) steps

/-- A label that is bound again behind a jump to it. -/
def rebindingSteps : List Step :=
  [.use .newLabel, .use (.declareFunction "Main"), .use (.bind ⟨0⟩), .use (.branch ⟨0⟩),
    .raw (.branchGoto 7), .use (.bind ⟨0⟩), .use (.branchIfZero ⟨0⟩), .raw .returnV]

/-- Both jumps go to where the label is bound last, and the jump that is emitted as it is goes where
it says. -/
theorem labels_are_resolved_rebinding :
    ∃ script, OwnLabels ((start "loop").occasions rebindingSteps) ∧
      ((start "loop").run rebindingSteps).script.bytecode.size < UInt32.size ∧
      ((start "loop").run rebindingSteps).build? = .ok script ∧
      Bytecode.decodeMany script.bytecode 4 0
        = .ok ([.branch 10, .branchGoto 7, .branchIfZero 10, .returnV], 16) ∧
      script.functions.toList
        = ((start "loop").occasions rebindingSteps).filterMap Occasion.declares? :=
  have own : OwnLabels ((start "loop").occasions rebindingSteps) := by decide
  have fits : ((start "loop").run rebindingSteps).script.bytecode.size < UInt32.size := by decide
  ⟨_, own, fits, rfl, rfl, ((labels_are_resolved own fits).2.2 _ rfl).2.1⟩

/-! ## Labels of another assembler -/

namespace Assembler

/-- The number of the next label is the number of labels that have been made. -/
theorem size_labels_run (a : Assembler) (steps : List Step) :
    (a.run steps).labels.size = a.labels.size + steps.countP Step.makesLabel := by
  induction steps generalizing a with
  | nil => rfl
  | cons s rest ih =>
    have after : (a.run (s :: rest)).labels.size = _ := ih (a.step s)
    rw [after, size_labels_step, List.countP_cons]
    cases s.makesLabel <;> simp [Nat.add_right_comm, Nat.add_assoc]

/-- There are as many labels as steps that make one. -/
theorem size_labels_start (name : String) (steps : List Step) :
    ((start name).run steps).labels.size = steps.countP Step.makesLabel := by
  rw [size_labels_run]
  exact Nat.zero_add _

/-- There are no fewer labels in the end than at any step. -/
theorem size_labels_le {a : Assembler} {steps : List Step} {o : Occasion}
    (ho : o ∈ a.occasions steps) : o.assembler.labels.size ≤ (a.run steps).labels.size := by
  induction steps generalizing a with
  | nil => cases ho
  | cons s rest ih =>
    rcases List.mem_cons.1 ho with rfl | ho
    · rw [size_labels_run]
      exact Nat.le_add_right ..
    · exact ih ho

/-- Binding a label of a number that has not been reached changes nothing. -/
theorem bind_of_size_le {a : Assembler} {label : Label} (h : a.labels.size ≤ label.index) :
    a.bind label = a := by
  unfold bind
  rw [Array.setIfInBounds_eq_of_size_le h]

/-- A jump to a label that has not been taken is reported, if no other one is before it. -/
theorem exists_error_of_untaken {name : String} {steps : List Step} {label : Label}
    (hgoal : label ∈ steps.filterMap Step.goal?)
    (untaken : ∀ o ∈ (start name).occasions steps, ¬ o.takes label) :
    ∃ index, ((start name).run steps).build? = .error (.unboundLabel index) := by
  cases hfirst : (steps.filterMap Step.goal?).find?
      fun label => !((start name).occasions steps).any (Occasion.takes label) with
  | some first => exact ⟨first.index, build?_eq_error_iff.2 ⟨first, hfirst, rfl⟩⟩
  | none =>
    have taken := List.find?_eq_none.1 hfirst label hgoal
    simp only [Bool.not_eq_true', List.any_eq_false, not_forall] at taken
    obtain ⟨o, ho, htakes⟩ := taken
    exact absurd (by simpa using htakes) (untaken o ho)

end Assembler

/-- The number of a label of another assembler is the number of labels that this one had made
before. Whatever labels an assembler is given, it reports the first jump whose label has not been
taken, that is bound by its number when the assembler had a label of that number, and builds a
script if there is none. So a jump to a label of another assembler is reported when the number has
not been taken, and in particular when no more labels have been made here than there. Binding such a
label changes nothing while no label of its number has been made here, and binds that label of its
own otherwise. -/
theorem foreign_labels_go_by_number (name other : String) (steps otherSteps : List Step) :
    let foreign := ((start other).run otherSteps).newLabel.1
    let a := (start name).run steps
    foreign.index = otherSteps.countP Step.makesLabel ∧
    (∀ e, a.build? = .error e ↔
      ∃ label, (steps.filterMap Step.goal?).find?
          (fun label => !((start name).occasions steps).any (Occasion.takes label)) = some label ∧
        e = .unboundLabel label.index) ∧
    (foreign ∈ steps.filterMap Step.goal? →
      (∀ o ∈ (start name).occasions steps, ¬ o.takes foreign) →
        ∃ index, a.build? = .error (.unboundLabel index)) ∧
    (steps.countP Step.makesLabel ≤ otherSteps.countP Step.makesLabel →
      a.bind foreign = a ∧
      (foreign ∈ steps.filterMap Step.goal? →
        ∃ index, a.build? = .error (.unboundLabel index))) ∧
    (otherSteps.countP Step.makesLabel < steps.countP Step.makesLabel →
      (a.bind foreign).script = a.script ∧
      ∀ label, (a.bind foreign).target? label
        = if foreign = label then some a.offset else a.target? label) := by
  intro foreign a
  have hforeign : foreign.index = otherSteps.countP Step.makesLabel :=
    size_labels_start other otherSteps
  refine ⟨hforeign, fun _ => build?_eq_error_iff, exists_error_of_untaken, fun hle => ?_,
    fun hlt => ⟨rfl, fun label => ?_⟩⟩
  · have few : a.labels.size ≤ foreign.index := by
      rw [size_labels_start, hforeign]
      exact hle
    refine ⟨bind_of_size_le few, fun hgoal => exists_error_of_untaken hgoal fun o ho htakes => ?_⟩
    simp only [Occasion.takes, decide_eq_true_eq] at htakes
    exact absurd htakes.2 (Nat.not_lt.2 (Nat.le_trans (size_labels_le ho) few))
  · have many : foreign.index < a.labels.size := by
      rw [size_labels_start, hforeign]
      exact hlt
    rw [target?_bind]
    by_cases heq : foreign = label
    · subst heq
      simp [many]
    · simp [heq]

/-- Steps with one label of their own, which is bound, and a jump to another label. -/
def strayingSteps (foreign : Label) : List Step :=
  [.use .newLabel, .use (.bind ⟨0⟩), .use (.bind foreign), .use (.branch foreign)]

/-- The second label of another assembler is reported. -/
theorem foreign_labels_go_by_number_straying :
    let foreign := ((start "other").run [.use .newLabel]).newLabel.1
    let a := (start "mixed").run (strayingSteps foreign)
    foreign ∈ (strayingSteps foreign).filterMap Step.goal? ∧
      a.bind foreign = a ∧ a.build? = .error (.unboundLabel 1) ∧
      ∃ index, a.build? = .error (.unboundLabel index) := by
  intro foreign a
  have given : foreign ∈ (strayingSteps foreign).filterMap Step.goal? := by decide
  have reported := (foreign_labels_go_by_number "mixed" "other" (strayingSteps foreign)
    [.use .newLabel]).2.2.2.1 (by decide)
  exact ⟨given, reported.1, rfl, reported.2 given⟩

/-- A jump to a label of another assembler may go unnoticed: steps that bind the label that they are
handed and jump to it build a script, if they have made a label before. -/
theorem foreign_label_may_pass :
    ¬ ∀ (name : String) (steps : Label → List Step),
      (∀ label, label ∈ (steps label).filterMap Step.goal?) →
      ∀ (other : String) (otherSteps : List Step),
        ∃ index, ((start name).run (steps ((start other).run otherSteps).newLabel.1)).build?
          = .error (.unboundLabel index) := by
  intro claim
  obtain ⟨index, h⟩ := claim "mixed"
    (fun foreign => [.use .newLabel, .use (.bind foreign), .use (.branch foreign)])
    (fun label => by simp [Step.goal?, Use.goal?]) "other" []
  cases h

end SheepScene
