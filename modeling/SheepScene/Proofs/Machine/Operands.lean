import SheepScene.Proofs.Machine.RunTriples
import SheepScene.Proofs.Sheep.Decoding

/-!
# Operands of instructions

Instructions take their operands off the stack before they do anything that can fail otherwise, and
then they put one value on it at most. `Exec.Effect takes puts x` says so of steps `x`: they run
short of values exactly if there are fewer than `takes`, they do not overflow where `puts` values
find room, and where they complete there are `puts` values in place of the operands and everything
below is as it was. Steps between taking and putting are quiet (`Exec.Quiet`).

`Instruction.operands` and `Instruction.results` are the table of these numbers, and
`effect_execute` is its proof. Dropping a number of values is the one instruction that looks for all
of them at once (`execute_pop`).
-/

set_option autoImplicit false

namespace SheepScene

/-! ## Stacks as lists -/

namespace Stack

variable {capacity : Nat} {s : Stack capacity}

/-- The values from the bottom to the top. -/
def toList (s : Stack capacity) : List Value :=
  s.values.toList

/-- A stack has as many values as its list. -/
@[simp] theorem length_toList (s : Stack capacity) : s.toList.length = s.size :=
  s.values.length_toList

/-- To take values off is to cut the list. -/
theorem toList_without (s : Stack capacity) (n : Nat) :
    (s.without n).toList = s.toList.take (s.size - n) := by
  simp [toList, without, size]

/-- The topmost values are the end of the list. -/
theorem topmost_eq (s : Stack capacity) (n : Nat) : s.topmost n = s.toList.drop (s.size - n) := by
  have all : (s.toList.drop (s.size - n)).length ≤ s.size - (s.size - n) := by simp
  rw [topmost, Array.toList_extract, List.extract_eq_take_drop]
  exact List.take_of_length_le all

/-- The topmost value is taken. -/
theorem pop_of_append {below : List Value} {v : Value} (h : s.toList = below ++ [v]) :
    s.pop = .ok (v, s.without 1) ∧ (s.without 1).toList = below := by
  have top : s.top? = some v := by
    rw [top?, ← Array.getLast?_toList, show s.values.toList = below ++ [v] from h]
    exact List.getLast?_concat
  have size : s.size = below.length + 1 := by
    rw [← length_toList, h, List.length_append]
    rfl
  rw [toList_without, size, h, Nat.add_sub_cancel, List.take_left, pop, top]
  exact ⟨rfl, rfl⟩

/-- There is something to take from a stack that is not empty. -/
theorem pop_of_pos (h : 0 < s.size) : ∃ v, s.pop = .ok (v, s.without 1) := by
  have nonempty : s.toList ≠ [] := by
    rw [← List.length_pos_iff, length_toList]
    exact h
  exact ⟨_, (pop_of_append (List.dropLast_concat_getLast nonempty).symm).1⟩

/-- There is nothing to take from an empty stack. -/
theorem pop_of_size_eq_zero (h : s.size = 0) : s.pop = .error .underflow := by
  have empty : s.values = #[] := Array.eq_empty_of_size_eq_zero h
  rw [pop, top?, empty]
  rfl

/-- A value is put on top where there is room. -/
theorem push_of_lt (v : Value) (h : s.size < capacity) :
    ∃ s', s.push v = .ok s' ∧ s'.toList = s.toList ++ [v] := by
  cases hpush : s.push v with
  | ok s' =>
    obtain ⟨-, hvalues⟩ := push_eq_ok_iff.1 hpush
    exact ⟨s', rfl, by rw [toList, hvalues, Array.toList_push, toList]⟩
  | error f =>
    have full := (push_eq_error_iff.1 hpush).1
    omega

/-- There is no room on a full stack. -/
theorem push_of_full (v : Value) (h : s.size = capacity) :
    s.push v = .error (.overflow capacity) :=
  push_eq_error_iff.2 ⟨h, rfl⟩

end Stack

namespace Thread

variable {α β : Type}

namespace Exec

/-! ## Steps that leave the stack alone -/

/-- Taking a value, run on a thread. -/
theorem run_pop (t : Thread) : pop.run.run t = match t.stack.pop with
    | .ok (v, stack) => (.ok v, { t with stack })
    | .error f => (.error (.fault f), t) := by
  unfold pop
  simp only [run_bind, run_get]
  cases t.stack.pop <;> rfl

/-- Putting a value, run on a thread. -/
theorem run_push (v : Value) (t : Thread) : (push v).run.run t = match t.stack.push v with
    | .ok stack => (.ok (), { t with stack })
    | .error f => (.error (.fault f), t) := by
  unfold push
  simp only [run_bind, run_get]
  cases t.stack.push v <;> rfl

/-- Steps that neither change the stack nor end in a fault. -/
structure Quiet (x : Exec α) : Prop where
  stack : ∀ t, (x.run.run t).2.stack = t.stack
  fault : ∀ t f, (x.run.run t).1 ≠ .error (.fault f)

/-- Two steps in turn leave the stack alone when each of them does. -/
theorem Quiet.bind {x : Exec α} {f : α → Exec β} (hx : Quiet x) (hf : ∀ a, Quiet (f a)) :
    Quiet (x >>= f) := by
  have outcome : ∀ t, ((x >>= f).run.run t).2.stack = t.stack ∧
      ∀ fault, ((x >>= f).run.run t).1 ≠ .error (.fault fault) := by
    intro t
    have stack := hx.stack t
    have fault := hx.fault t
    rw [run_bind]
    rcases hrun : x.run.run t with ⟨e | a, t'⟩
    · rw [hrun] at stack fault
      exact ⟨stack, fun g he => fault g (by cases he; rfl)⟩
    · rw [hrun] at stack
      exact ⟨((hf a).stack t').trans stack, (hf a).fault t'⟩
  exact ⟨fun t => (outcome t).1, fun t => (outcome t).2⟩

/-- To answer leaves the stack alone. -/
theorem quiet_pure (a : α) : Quiet (pure a) :=
  ⟨fun _ => rfl, fun _ _ => nofun⟩

/-- To fail leaves the stack alone. -/
theorem quiet_throw (e : ScriptError) : Quiet (throw (.error e) : Exec α) :=
  ⟨fun _ => rfl, fun _ _ => nofun⟩

/-- To look at the thread leaves the stack alone. -/
theorem quiet_get : Quiet (get : Exec Thread) :=
  ⟨fun _ => rfl, fun _ _ => nofun⟩

/-- To change what is not the stack leaves the stack alone. -/
theorem quiet_modify {f : Thread → Thread} (h : ∀ t, (f t).stack = t.stack) :
    Quiet (modify f : Exec Unit) :=
  ⟨h, fun _ _ => nofun⟩

/-- To pass on a result or an error leaves the stack alone. -/
theorem quiet_lift (x : Except ScriptError α) : Quiet (lift x) := by
  cases x with
  | ok a => exact quiet_pure a
  | error e => exact quiet_throw e

/-- To take a value for a number leaves the stack alone. -/
theorem quiet_number (pc : Nat) (operation : String) (convert : Value → Option α) (v : Value) :
    Quiet (number pc operation convert v) := by
  unfold number
  split
  · exact quiet_pure _
  · exact quiet_throw _

/-- To jump leaves the stack alone. -/
theorem quiet_jump (pc : Nat) (target : UInt32) : Quiet (jump pc target) := by
  have moves : Quiet (modify fun t => { t with pc := target.toNat }) :=
    quiet_modify fun _ => rfl
  refine quiet_get.bind fun t => ?_
  split
  · exact (quiet_throw _).bind fun _ => moves
  · exact moves

/-! ## Taking and putting -/

/-- Steps that take a number of values off the stack before anything else can fail, and then put a
number of values on it. -/
structure Effect (takes puts : Nat) (x : Exec α) : Prop where
  short : ∀ t : Thread, t.stack.size < takes → (x.run.run t).1 = .error (.fault .underflow)
  room : ∀ t : Thread, takes ≤ t.stack.size → t.stack.size - takes + puts ≤ stackCapacity →
    ∀ f, (x.run.run t).1 ≠ .error (.fault f)
  stack : ∀ t a, (x.run.run t).1 = .ok a → ∃ put, put.length = puts ∧
    (x.run.run t).2.stack.toList = t.stack.toList.take (t.stack.size - takes) ++ put

/-- Steps that leave the stack alone neither take nor put anything. -/
theorem Quiet.effect {x : Exec α} (h : Quiet x) : Effect 0 0 x where
  short _ hlt := absurd hlt (Nat.not_lt_zero _)
  room t _ _ := h.fault t
  stack t _ _ := ⟨[], rfl, by rw [h.stack, Nat.sub_zero, ← Stack.length_toList, List.take_length,
    List.append_nil]⟩

section Rules

variable {takes puts : Nat} {f : α → Exec β}

/-- Quiet steps come first. -/
theorem Effect.after {x : Exec α} (hx : Quiet x) (hf : ∀ a, Effect 0 puts (f a)) :
    Effect 0 puts (x >>= f) := by
  have runs : ∀ t, (∃ e, ((x >>= f).run.run t).1 = .error (.error e)) ∨
      ∃ a t', t'.stack = t.stack ∧ (x >>= f).run.run t = (f a).run.run t' := by
    intro t
    have stack := hx.stack t
    have fault := hx.fault t
    rw [run_bind]
    rcases hrun : x.run.run t with ⟨(e | g) | a, t'⟩
    · exact .inl ⟨e, rfl⟩
    · rw [hrun] at fault
      exact absurd rfl (fault g)
    · rw [hrun] at stack
      exact .inr ⟨a, t', stack, rfl⟩
  refine ⟨fun _ hlt => absurd hlt (Nat.not_lt_zero _), fun t _ room g => ?_, fun t b hok => ?_⟩
  · rcases runs t with ⟨e, he⟩ | ⟨a, t', same, hrun⟩
    · rw [he]
      nofun
    · rw [hrun]
      exact (hf a).room t' (Nat.zero_le _) (by rwa [same]) g
  · rcases runs t with ⟨e, he⟩ | ⟨a, t', same, hrun⟩
    · rw [he] at hok
      cases hok
    · rw [hrun] at hok ⊢
      rw [← same]
      exact (hf a).stack t' b hok

/-- A look at the thread comes first. -/
theorem Effect.look {f : Thread → Exec β} (hf : ∀ t, Effect takes puts (f t)) :
    Effect takes puts (get >>= f) where
  short t := (hf t).short t
  room t := (hf t).room t
  stack t := (hf t).stack t

/-- One operand is taken first. -/
theorem Effect.pop {f : Value → Exec β} (hf : ∀ v, Effect takes puts (f v)) :
    Effect (takes + 1) puts (pop >>= f) := by
  have run : ∀ t : Thread, 0 < t.stack.size → ∃ v,
      (Thread.pop >>= f).run.run t = (f v).run.run { t with stack := t.stack.without 1 } := by
    intro t positive
    obtain ⟨v, hpop⟩ := Stack.pop_of_pos positive
    exact ⟨v, by rw [run_bind, run_pop, hpop]⟩
  refine ⟨fun t hlt => ?_, fun t hle room g => ?_, fun t b hok => ?_⟩
  · rcases Nat.eq_zero_or_pos t.stack.size with hzero | positive
    · rw [run_bind, run_pop, Stack.pop_of_size_eq_zero hzero]
    · obtain ⟨v, hrun⟩ := run t positive
      rw [hrun]
      exact (hf v).short _ (by simp only [Stack.size_without]; omega)
  · obtain ⟨v, hrun⟩ := run t (by omega)
    rw [hrun]
    exact (hf v).room _ (by simp only [Stack.size_without]; omega)
      (by simp only [Stack.size_without]; omega) g
  · rcases Nat.eq_zero_or_pos t.stack.size with hzero | positive
    · rw [run_bind, run_pop, Stack.pop_of_size_eq_zero hzero] at hok
      cases hok
    · obtain ⟨v, hrun⟩ := run t positive
      rw [hrun] at hok ⊢
      obtain ⟨put, hlength, hstack⟩ := (hf v).stack _ b hok
      refine ⟨put, hlength, ?_⟩
      rw [hstack, Stack.toList_without, Stack.size_without, List.take_take,
        Nat.min_eq_left (Nat.sub_le ..), Nat.sub_sub, Nat.add_comm 1]

end Rules

/-- Steps that fail may be said to put anything. -/
theorem effect_throw (puts : Nat) (e : ScriptError) :
    Effect 0 puts (throw (.error e) : Exec α) where
  short _ hlt := absurd hlt (Nat.not_lt_zero _)
  room _ _ _ _ := nofun
  stack _ _ := nofun

/-- Putting a value and going on, run on a thread. -/
theorem run_pushProceed (v : Value) (t : Thread) :
    (do push v; return Flow.proceed : Exec Flow).run.run t = match t.stack.push v with
      | .ok stack => (.ok .proceed, { t with stack })
      | .error f => (.error (.fault f), t) := by
  rw [run_bind, run_push]
  cases t.stack.push v <;> rfl

/-- One value is put on the stack at the end. -/
theorem effect_pushProceed (v : Value) : Effect 0 1 (do push v; return Flow.proceed) := by
  refine ⟨fun _ hlt => absurd hlt (Nat.not_lt_zero _), fun t _ room f => ?_, fun t a hok => ?_⟩
  · obtain ⟨s', hpush, -⟩ := Stack.push_of_lt (s := t.stack) v (by omega)
    rw [run_pushProceed, hpush]
    nofun
  · rw [run_pushProceed] at hok ⊢
    rcases Nat.lt_or_eq_of_le t.stack.size_le with hlt | hfull
    · obtain ⟨s', hpush, hlist⟩ := Stack.push_of_lt (s := t.stack) v hlt
      rw [hpush]
      exact ⟨[v], rfl, by rw [hlist, Nat.sub_zero, ← Stack.length_toList, List.take_length]⟩
    · rw [Stack.push_of_full v hfull] at hok
      cases hok

end Exec

end Thread

/-! ## The table -/

namespace Instruction

/-- An instruction is read within the code. -/
theorem inside_of_decode {code : Array UInt8} {pc next : Nat} {i : Instruction}
    (h : decode code pc = .ok (i, next)) : pc < code.size := by
  obtain ⟨rfl, hle, -⟩ := decode_eq_ok_iff.1 h
  have := i.size_pos
  omega

/-- An instruction calls the host or concerns the thread alone. -/
theorem call_or_alone (i : Instruction) :
    (∃ kind index, i = .callSysFunction kind index) ∨
      ∀ kind index, i ≠ .callSysFunction kind index := by
  cases i
  case callSysFunction kind index => exact .inl ⟨kind, index, rfl⟩
  all_goals exact .inr nofun

/-- How many values an instruction finds on the stack; a host call counts its arguments. -/
def operands : Instruction → Nat
  | .pop count => count.toNat
  | .binary .. | .modulo | .and | .or => 2
  | .store .. | .negate _ | .iToF | .fToI | .not | .getString | .branchIfZero _
  | .callSysFunction .. => 1
  | _ => 0

/-- How many values an instruction leaves for its operands. -/
def results : Instruction → Nat
  | .pushI _ | .pushF _ | .pushS _ | .load .. | .binary .. | .modulo | .and | .or | .negate _
  | .iToF | .fToI | .not | .getString | .callSysFunction .. => 1
  | _ => 0

/-- No instruction leaves more than one value. -/
theorem results_le_one (i : Instruction) : i.results ≤ 1 := by
  cases i <;> first | exact Nat.le_refl 1 | exact Nat.zero_le 1

end Instruction

namespace Thread

open Exec

/-- Instructions have the effect of the table. -/
theorem effect_execute (isComplete : WaitHandle → Bool) (pc : Nat) {i : Instruction}
    (hpop : ∀ count, i ≠ .pop count) (hcall : ∀ kind index, i ≠ .callSysFunction kind index) :
    Effect i.operands i.results (execute isComplete pc i) := by
  have proceeds : Quiet (pure Flow.proceed) := quiet_pure _
  have jumps : ∀ target, Quiet (do jump pc target; return Flow.proceed) :=
    fun target => (quiet_jump pc target).bind fun _ => proceeds
  unfold execute
  refine Effect.look fun t => ?_
  cases i with
  | pop count => exact absurd rfl (hpop count)
  | callSysFunction kind index => exact absurd rfl (hcall kind index)
  | sitnSpin | debugBreakpoint | yield | returnV => exact (quiet_pure _).effect
  | branch target | branchGoto target => exact (jumps target).effect
  | branchIfZero target =>
    refine Effect.pop fun v => Quiet.effect ?_
    dsimp only
    split
    · exact jumps target
    · exact proceeds
  | beginWait =>
    have opens : Quiet (modify fun t => { t with waitDepth := t.waitDepth + 1 }) :=
      quiet_modify fun _ => rfl
    exact (opens.bind fun _ => proceeds).effect
  | endWait =>
    have settles : Quiet (modify fun t => { t with waits := pending isComplete t.waits }) :=
      quiet_modify fun _ => rfl
    refine Quiet.effect (Quiet.bind ⟨fun _ => rfl, fun _ _ => nofun⟩ fun _ =>
      quiet_get.bind fun t => ?_)
    split
    · refine settles.bind fun _ => quiet_get.bind fun t => ?_
      split
      · exact quiet_pure _
      · exact proceeds
    · exact proceeds
  | store kind index =>
    have stores : ∀ v : Value, Quiet (do
        modify fun t => { t with vars := t.vars.setIfInBounds index.toNat v }
        return Flow.proceed) :=
      fun v => Quiet.bind ⟨fun _ => rfl, fun _ _ => nofun⟩ fun _ => proceeds
    refine Effect.pop fun v => ((quiet_lift _).bind fun v => quiet_get.bind fun t => ?_).effect
    split
    · exact (quiet_throw _).bind fun _ => stores v
    · exact stores v
  | load kind index =>
    refine Effect.look fun t => ?_
    split
    · exact effect_throw _ _
    · exact Effect.after (quiet_lift _) effect_pushProceed
  | pushI | pushF | pushS => exact effect_pushProceed _
  | binary op flavour =>
    exact Effect.pop fun b => Effect.pop fun a => Effect.after (quiet_lift _) effect_pushProceed
  | negate flavour => exact Effect.pop fun v => Effect.after (quiet_lift _) effect_pushProceed
  | iToF | fToI =>
    exact Effect.pop fun v => Effect.after (quiet_number _ _ _ v) fun _ => effect_pushProceed _
  | modulo =>
    refine Effect.pop fun b => Effect.pop fun a => Effect.after (quiet_number _ _ _ b) fun y => ?_
    refine Effect.after (quiet_number _ _ _ a) fun x => ?_
    dsimp only
    split
    · exact Effect.after (quiet_throw _) fun _ => effect_pushProceed _
    · exact effect_pushProceed _
  | and | or => exact Effect.pop fun b => Effect.pop fun a => effect_pushProceed _
  | not => exact Effect.pop fun a => effect_pushProceed _
  | getString => exact Effect.pop fun v => Effect.after (quiet_lift _) effect_pushProceed

/-- Dropping values looks for all of them at once. -/
theorem execute_pop (isComplete : WaitHandle → Bool) (pc : Nat) (count : UInt32) (t : Thread) :
    (execute isComplete pc (.pop count)).run.run t =
      if count.toNat ≤ t.stack.size then
        (.ok .proceed, { t with stack := t.stack.without count.toNat })
      else (.error (.fault (.shortDrop count.toNat t.stack.size)), t) := by
  unfold execute Stack.drop
  simp only [run_bind, run_get]
  by_cases enough : count.toNat ≤ t.stack.size
  · rw [if_pos enough, if_pos enough]
    rfl
  · rw [if_neg enough, if_neg enough]
    rfl

/-! ## Steps in the world -/

section Step

variable {W Body : Type} (host : Host W Body) (table : HostTable Body) {t : Thread} {next : Nat}

/-- What steps of a thread come to in a world, by their outcome. -/
theorem runExec_eq {α : Type} (t : Thread) (steps : Exec α) (w : W) :
    runExec t steps w = match steps.run.run t with
      | (.ok a, t') => .ok (t', .ok a) w
      | (.error (.error e), t') => .ok (t', .error e) w
      | (.error (.fault f), _) => .error f w := by
  unfold runExec
  rcases steps.run.run t with ⟨(e | f) | a, t'⟩ <;> rfl

/-- A thread in front of a host call makes it. -/
theorem step_of_call {kind : Option Kind} {index : UInt32}
    (hdec : Instruction.decode t.script.bytecode t.pc = .ok (.callSysFunction kind index, next))
    (w : W) : step host table t w
      = callHost host table { t with pc := next } t.pc kind index w := by
  unfold step
  rw [if_neg (Nat.not_le.2 (Instruction.inside_of_decode hdec))]
  simp only [hdec]

/-- A thread in front of another instruction runs that. -/
theorem step_of_alone {i : Instruction}
    (hdec : Instruction.decode t.script.bytecode t.pc = .ok (i, next))
    (hcall : ∀ kind index, i ≠ .callSysFunction kind index) (w : W) : step host table t w
      = runExec { t with pc := next } (execute (host.isComplete w) t.pc i) w := by
  unfold step
  rw [if_neg (Nat.not_le.2 (Instruction.inside_of_decode hdec))]
  simp only [hdec]
  cases i
  case callSysFunction kind index => exact absurd rfl (hcall kind index)
  all_goals rfl

end Step

end Thread

end SheepScene
