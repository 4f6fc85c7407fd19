import SheepScene.Proofs.Machine.HostCalls

/-!
# Exact stack effects

For every instruction it is known when the stack is too short for it, when it is too full, and what
the stack is like afterwards (`stack_effects_are_exact`). A script may fail for other reasons before
or after its operands are taken; these are errors of the thread and no faults.
-/

set_option autoImplicit false

namespace SheepScene

variable {W Body : Type}

/-! ## The tables -/

namespace Script

variable (s : Script) (table : HostTable Body)

/-- How many values an instruction needs so as not to run short. A host call pops its count, if
there is a function to call. -/
def needs : Instruction → Nat
  | .callSysFunction _ index => if (s.hostFunction? table index).isSome then 1 else 0
  | i => i.operands

/-- How many values an instruction replaces when it completes. -/
def takes : Instruction → Nat
  | .callSysFunction _ index => match s.hostFunction? table index with
    | some f => f.args.length + 1
    | none => 0
  | i => i.operands

/-- By how much the height of the stack changes when an instruction completes. -/
def heightChange : Instruction → Int
  | .pushI _ | .pushF _ | .pushS _ | .load .. => 1
  | .store .. | .branchIfZero _ | .binary .. | .modulo | .and | .or => -1
  | .pop count => -count.toNat
  | .callSysFunction _ index => match s.hostFunction? table index with
    | some f => -f.args.length
    | none => 0
  | _ => 0

variable {s table}

/-- An instruction that calls no host function needs its operands and nothing else. -/
theorem needs_of_alone {i : Instruction} (hcall : ∀ kind index, i ≠ .callSysFunction kind index) :
    s.needs table i = i.operands := by
  cases i
  case callSysFunction kind index => exact absurd rfl (hcall kind index)
  all_goals rfl

/-- An instruction that calls no host function takes its operands off the stack. -/
theorem takes_of_alone {i : Instruction} (hcall : ∀ kind index, i ≠ .callSysFunction kind index) :
    s.takes table i = i.operands := by
  cases i
  case callSysFunction kind index => exact absurd rfl (hcall kind index)
  all_goals rfl

/-- A call takes the argument count and as many values as the function has arguments. -/
theorem takes_call {f : HostFunction Body} {kind : Option Kind} {index : UInt32}
    (h : s.hostFunction? table index = some f) :
    s.takes table (.callSysFunction kind index) = f.args.length + 1 := by
  show (match s.hostFunction? table index with | some f => f.args.length + 1 | none => 0) = _
  rw [h]

/-- A call takes its arguments and the count away, and adds its one result. -/
theorem heightChange_call {f : HostFunction Body} {kind : Option Kind} {index : UInt32}
    (h : s.hostFunction? table index = some f) :
    s.heightChange table (.callSysFunction kind index) = -(f.args.length : Int) := by
  show (match s.hostFunction? table index with | some f => -(f.args.length : Int) | none => 0) = _
  rw [h]

/-- The height changes by the results less what they replace. -/
theorem heightChange_eq {i : Instruction}
    (hfound : ∀ kind index, i = .callSysFunction kind index →
      ∃ f, s.hostFunction? table index = some f) :
    s.heightChange table i = i.results - s.takes table i := by
  cases i
  case callSysFunction kind index =>
    obtain ⟨f, hf⟩ := hfound kind index rfl
    have one : (Instruction.callSysFunction kind index).results = 1 := rfl
    rw [heightChange_call hf, takes_call hf, one]
    omega
  case pop count => exact (Int.zero_sub _).symm
  all_goals rfl

end Script

/-- The fault of an instruction that finds too few values. -/
def Instruction.shortage (held : Nat) : Instruction → Fault
  | .pop count => .shortDrop count.toNat held
  | _ => .underflow

/-- The instruction comes to put a value on the stack for which it has taken none off. -/
def Thread.Pushes (t : Thread) : Instruction → Prop
  | .pushI _ | .pushF _ | .pushS _ => True
  | .load kind index => ∃ v v', t.vars[index.toNat]? = some v ∧
    Value.Converts t.script.strings v kind v'
  | _ => False

namespace Thread

open Exec

variable {t : Thread} {isComplete : WaitHandle → Bool} {pc : Nat} {i : Instruction}

/-! ## Instructions of the thread alone -/

/-- An instruction that pushes a constant needs no operand and leaves one value. -/
theorem Pushes.table (h : t.Pushes i) : i.operands = 0 ∧ i.results = 1 := by
  cases i <;> first | exact ⟨rfl, rfl⟩ | exact h.elim

/-- A load puts a value on the stack where the variable exists and converts. -/
theorem execute_load (isComplete : WaitHandle → Bool) (pc : Nat) (kind : Kind) (index : UInt32)
    (t : Thread) :
    (∃ v, t.Pushes (.load kind index) ∧ (execute isComplete pc (.load kind index)).run.run t
      = (do push v; return Flow.proceed : Exec Flow).run.run t) ∨
    ¬ t.Pushes (.load kind index) ∧
      ∃ e, (execute isComplete pc (.load kind index)).run.run t = (.error (.error e), t) := by
  unfold execute Pushes
  simp only [run_bind, run_get]
  cases hv : t.vars[index.toNat]? with
  | none => exact .inr ⟨nofun, _, rfl⟩
  | some v =>
    simp only [run_bind]
    cases hcoerce : v.coerce t.script.strings pc "Load" kind with
    | error e =>
      refine .inr ⟨?_, e, rfl⟩
      rintro ⟨_, v', ⟨⟩, converts⟩
      cases hcoerce.symm.trans ((Value.coerce_eq_ok_iff ..).2 converts)
    | ok v' => exact .inl ⟨v', ⟨v, v', rfl, (Value.coerce_eq_ok_iff ..).1 hcoerce⟩, rfl⟩

/-- On a full stack a push overflows. -/
theorem fault_push_full (full : t.stack.size = stackCapacity) (v : Value) (f : Fault) :
    ((do push v; return Flow.proceed : Exec Flow).run.run t).1 = .error (.fault f) ↔
      f = .overflow stackCapacity := by
  rw [run_pushProceed, Stack.push_of_full v full]
  constructor
  · rintro ⟨⟩
    rfl
  · rintro rfl
    rfl

/-- On a full stack those instructions end in a fault that come to push a value. -/
theorem fault_execute_full (full : t.stack.size = stackCapacity) (hoperands : i.operands = 0)
    (hresults : i.results = 1) (f : Fault) :
    ((execute isComplete pc i).run.run t).1 = .error (.fault f) ↔
      t.Pushes i ∧ f = .overflow stackCapacity := by
  cases i with
  | pushI | pushF | pushS => exact (fault_push_full full _ f).trans (and_iff_right trivial).symm
  | load kind index =>
    rcases execute_load isComplete pc kind index t with
      ⟨v, pushes, hrun⟩ | ⟨hnot, e, hrun⟩
    · rw [hrun, fault_push_full full]
      exact (and_iff_right pushes).symm
    · rw [hrun]
      exact ⟨nofun, fun h => absurd h.1 hnot⟩
  | _ =>
    first
    | exact absurd hresults Nat.zero_ne_one
    | exact absurd hoperands (Nat.succ_ne_zero _)

/-- Dropping values ends in a fault where there are too few of them. -/
theorem fault_pop_iff (count : UInt32) (f : Fault) :
    ((execute isComplete pc (.pop count)).run.run t).1 = .error (.fault f) ↔
      t.stack.size < count.toNat ∧ f = .shortDrop count.toNat t.stack.size := by
  rw [execute_pop]
  by_cases enough : count.toNat ≤ t.stack.size
  · rw [if_pos enough]
    exact ⟨nofun, fun h => absurd h.1 (Nat.not_lt.2 enough)⟩
  · rw [if_neg enough]
    constructor
    · rintro ⟨⟩
      exact ⟨Nat.lt_of_not_le enough, rfl⟩
    · rintro ⟨-, rfl⟩
      rfl

/-- An instruction ends in a fault where there are too few values for it, and where it comes to push
one on a full stack. -/
theorem fault_execute_iff (hcall : ∀ kind index, i ≠ .callSysFunction kind index) (f : Fault) :
    ((execute isComplete pc i).run.run t).1 = .error (.fault f) ↔
      (t.stack.size < i.operands ∧ f = i.shortage t.stack.size) ∨
      (t.stack.size = stackCapacity ∧ t.Pushes i ∧ f = .overflow stackCapacity) := by
  have bound : t.stack.size ≤ stackCapacity := t.stack.size_le
  by_cases hpop : ∃ count, i = .pop count
  · obtain ⟨count, rfl⟩ := hpop
    rw [fault_pop_iff]
    exact (or_iff_left fun h => h.2.1).symm
  have effect := effect_execute isComplete pc (fun count h => hpop ⟨count, h⟩) hcall
  have shortage : i.shortage t.stack.size = .underflow := by
    cases i <;> first | rfl | exact absurd ⟨_, rfl⟩ hpop
  rw [shortage]
  by_cases short : t.stack.size < i.operands
  · rw [effect.short t short]
    constructor
    · rintro ⟨⟩
      exact .inl ⟨short, rfl⟩
    · rintro (⟨-, rfl⟩ | ⟨-, pushes, -⟩)
      · rfl
      · rw [pushes.table.1] at short
        cases short
  by_cases room : t.stack.size - i.operands + i.results ≤ stackCapacity
  · have none := effect.room t (Nat.le_of_not_lt short) room f
    refine ⟨fun h => absurd h none, ?_⟩
    rintro (⟨short', -⟩ | ⟨full, pushes, -⟩)
    · exact absurd short' short
    · rw [full, pushes.table.1, pushes.table.2] at room
      omega
  · -- More would be on the stack than before, so nothing is taken off it.
    obtain ⟨hoperands, hresults⟩ : i.operands = 0 ∧ i.results = 1 := by
      have one := i.results_le_one
      omega
    have full : t.stack.size = stackCapacity := by omega
    rw [fault_execute_full full hoperands hresults]
    constructor
    · exact fun h => .inr ⟨full, h⟩
    · rintro (⟨short', -⟩ | ⟨-, h⟩)
      · exact absurd short' short
      · exact h

/-- An instruction that completes leaves what is below its operands. -/
theorem stack_of_execute (hcall : ∀ kind index, i ≠ .callSysFunction kind index) {flow : Flow}
    (h : ((execute isComplete pc i).run.run t).1 = .ok flow) :
    i.operands ≤ t.stack.size ∧ ∃ put, put.length = i.results ∧
      ((execute isComplete pc i).run.run t).2.stack.toList
        = t.stack.toList.take (t.stack.size - i.operands) ++ put := by
  by_cases hpop : ∃ count, i = .pop count
  · obtain ⟨count, rfl⟩ := hpop
    rw [execute_pop] at h ⊢
    split at h
    · rename_i enough
      rw [if_pos enough]
      exact ⟨enough, [], rfl, by rw [List.append_nil]; exact Stack.toList_without ..⟩
    · cases h
  · have effect := effect_execute isComplete pc (fun count h => hpop ⟨count, h⟩) hcall
    refine ⟨Nat.le_of_not_lt fun short => ?_, effect.stack t flow h⟩
    rw [effect.short t short] at h
    cases h

/-! ## Instructions in the world -/

variable {host : Host W Body} {table : HostTable Body} {next : Nat} {w w' : W}

/-- An execution of the stack program faults exactly where the program does, and then the world is
the one it began with. -/
theorem runExec_eq_error_iff {α : Type} {steps : Exec α} {f : Fault} :
    runExec t steps w = .error f w' ↔ (steps.run.run t).1 = .error (.fault f) ∧ w' = w := by
  rw [runExec_eq]
  rcases steps.run.run t with ⟨(e | g) | a, u⟩ <;> simp [eq_comm]

/-- A call ends in a fault on an empty stack, if there is a function to call, and where that
function does so. -/
theorem callHost_eq_error_iff {kind : Option Kind} {index : UInt32} {g : Fault} :
    callHost host table t pc kind index w = .error g w' ↔
      (t.stack.size < t.script.needs table (.callSysFunction kind index) ∧
        g = .underflow ∧ w' = w) ∨
      ∃ f args below, t.script.Calls table t.stack.toList index f args below ∧
        host.call f.body args w = .error g w' := by
  have spec := callHost_spec host table t pc kind index w
  constructor
  · intro h
    rw [h] at spec
    rcases spec with ⟨hg, hw, found, empty⟩ | called
    · exact .inl ⟨by rw [Script.needs, if_pos found, empty]; exact Nat.one_pos, hg, hw⟩
    · exact .inr called
  · rintro (⟨short, rfl, rfl⟩ | ⟨f, args, below, calls, hcall⟩)
    · obtain ⟨found, empty⟩ : (t.script.hostFunction? table index).isSome ∧ t.stack.size = 0 := by
        rw [Script.needs] at short
        split at short
        · exact ⟨by assumption, Nat.lt_one_iff.1 short⟩
        · cases short
      have uncalled : ∀ f args below, ¬ t.script.Calls table t.stack.toList index f args below := by
        intro f args below calls
        have length := calls.length
        rw [Stack.length_toList, empty] at length
        omega
      rcases hrun : callHost host table t pc kind index w' with ⟨⟨t', e | flow⟩, u⟩ | ⟨g, u⟩ <;>
        rw [hrun] at spec
      · exact absurd (spec found) (Nat.not_lt.2 (Nat.le_of_eq empty))
      · obtain ⟨-, f, args, below, -, -, calls, -⟩ := spec
        exact absurd calls (uncalled f args below)
      · rcases spec with ⟨rfl, rfl, -⟩ | ⟨f, args, below, calls, -⟩
        · rfl
        · exact absurd calls (uncalled f args below)
    · obtain ⟨u, hrun⟩ := callArguments_of_calls pc calls
      rw [callHost_eq, hrun]
      simp only [hcall]

/-- What an instruction needs and what it does to the stack if it completes. -/
theorem step_stack {t' : Thread} {flow : Flow}
    (hdec : Instruction.decode t.script.bytecode t.pc = .ok (i, next))
    (h : step host table t w = .ok (t', .ok flow) w') :
    t.script.takes table i ≤ t.stack.size ∧ ∃ put, put.length = i.results ∧
      t'.stack.toList = t.stack.toList.take (t.stack.size - t.script.takes table i) ++ put ∧
      t.script.heightChange table i = i.results - t.script.takes table i := by
  rcases i.call_or_alone with ⟨kind, index, rfl⟩ | hcall
  · have spec := callHost_spec host table { t with pc := next } t.pc kind index w
    rw [← step_of_call host table hdec, h] at spec
    obtain ⟨-, f, args, below, reply, v, calls, -, -, hlist⟩ := spec
    have found : t.script.hostFunction? table index = some f := calls.found
    have length : t.stack.toList.length = below.length + (f.args.length + 1) := calls.length
    rw [Stack.length_toList] at length
    have split : t.stack.toList.take (t.stack.size - (f.args.length + 1)) = below := by
      obtain ⟨-, raw, count, hvalues, -, -⟩ := calls
      rw [length, Nat.add_sub_cancel, show t.stack.toList = _ from hvalues, List.append_assoc,
        List.take_left]
    rw [Script.takes_call found]
    refine ⟨by omega, [v], rfl, by rw [hlist, split], ?_⟩
    rw [Script.heightChange_eq fun _ _ hi => by cases hi; exact ⟨f, found⟩,
      Script.takes_call found]
  · rw [step_of_alone host table hdec hcall] at h
    obtain ⟨-, rfl, hok⟩ := runExec_ok h
    obtain ⟨enough, put, hlength, hlist⟩ := stack_of_execute hcall (hok flow rfl)
    rw [Script.takes_of_alone hcall]
    refine ⟨enough, put, hlength, hlist, ?_⟩
    rw [Script.heightChange_eq fun kind index hi => absurd hi (hcall kind index),
      Script.takes_of_alone hcall]

end Thread

/-- The stack of a thread and the instruction it stands at tell exactly whether the instruction ends
in a fault: if the stack is shorter than the instruction needs; if it is full and a value is pushed
for which none has been taken; or if a host function itself does so. An instruction that completes
changes the height by what the table says, and leaves all values below its operands as they
were. -/
theorem stack_effects_are_exact (host : Host W Body) (table : HostTable Body) {t : Thread}
    {i : Instruction} {next : Nat}
    (hdec : Instruction.decode t.script.bytecode t.pc = .ok (i, next)) (w : W) :
    (∀ f w', t.step host table w = .error f w' ↔
      (t.stack.size < t.script.needs table i ∧ f = i.shortage t.stack.size ∧ w' = w) ∨
      (t.stack.size = stackCapacity ∧ t.Pushes i ∧ f = .overflow stackCapacity ∧ w' = w) ∨
      ∃ kind index g args below, i = .callSysFunction kind index ∧
        t.script.Calls table t.stack.toList index g args below ∧
        host.call g.body args w = .error f w') ∧
    ∀ t' flow w', t.step host table w = .ok (t', .ok flow) w' →
      t.script.takes table i ≤ t.stack.size ∧
      (t'.stack.size : Int) = t.stack.size + t.script.heightChange table i ∧
      t'.stack.toList.take (t.stack.size - t.script.takes table i)
        = t.stack.toList.take (t.stack.size - t.script.takes table i) := by
  refine ⟨fun f w' => ?_, fun t' flow w' h => ?_⟩
  · rcases i.call_or_alone with ⟨kind, index, rfl⟩ | hcall
    · rw [Thread.step_of_call host table hdec]
      refine Thread.callHost_eq_error_iff.trans (or_congr Iff.rfl ?_)
      constructor
      · rintro ⟨g, args, below, called⟩
        exact .inr ⟨kind, index, g, args, below, rfl, called⟩
      · rintro (⟨-, ⟨⟩, -⟩ | ⟨_, _, g, args, below, ⟨⟩, called⟩)
        exact ⟨g, args, below, called⟩
    · have uncalled : ¬ ∃ kind index g args below, i = .callSysFunction kind index ∧
          t.script.Calls table t.stack.toList index g args below ∧
          host.call g.body args w = .error f w' :=
        fun ⟨kind, index, _, _, _, hi, _⟩ => hcall kind index hi
      rw [Thread.step_of_alone host table hdec hcall, Thread.runExec_eq_error_iff,
        Thread.fault_execute_iff hcall, Script.needs_of_alone hcall, or_iff_left uncalled,
        or_and_right, and_assoc, and_assoc, and_assoc]
      rfl
  · obtain ⟨enough, put, hlength, hlist, hchange⟩ := Thread.step_stack hdec h
    have below : (t.stack.toList.take (t.stack.size - t.script.takes table i)).length
        = t.stack.size - t.script.takes table i := by
      rw [List.length_take, Stack.length_toList]
      omega
    refine ⟨enough, ?_, by rw [hlist, List.take_left' below]⟩
    rw [hchange, ← Stack.length_toList, hlist, List.length_append, below, hlength]
    omega

/-- A call takes two arguments and their count and leaves an answer, and on the empty stack it runs
short. -/
theorem stack_effects_are_exact_salute :
    { saluting with stack := .empty }.step saluteHost saluteTable 0 = .error .underflow 0 ∧
    ∃ t', saluting.step saluteHost saluteTable 0 = .ok (t', .ok .proceed) 1 ∧
      (t'.stack.size : Int) = 4 + -2 ∧ t'.stack.toList.take 1 = [.int 7] := by
  have read : Instruction.decode saluting.script.bytecode saluting.pc
      = .ok (.callSysFunction (some .string) 0, 5) := rfl
  have run : ∃ t', saluting.step saluteHost saluteTable 0 = .ok (t', .ok .proceed) 1 :=
    ⟨_, rfl⟩
  obtain ⟨t', hstep⟩ := run
  obtain ⟨-, height, below⟩ := (stack_effects_are_exact saluteHost saluteTable read 0).2 _ _ _ hstep
  have short := ((stack_effects_are_exact saluteHost saluteTable
    (t := { saluting with stack := .empty }) read 0).1 .underflow 0).2 (.inl ⟨by decide, rfl, rfl⟩)
  exact ⟨short, t', hstep, height, below⟩

end SheepScene
