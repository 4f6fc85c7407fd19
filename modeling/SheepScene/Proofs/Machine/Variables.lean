import SheepScene.Proofs.Machine.ThreadStates

/-!
# The variables of threads

Only a store changes a variable, and it gives the variable a value of the kind that the instruction
names, not of the kind that the script declares (`Thread.step_vars`). So every variable of a thread
holds the value it was declared with or a value of a kind that some store of the code names for it,
and where the stores of a script name the declared kinds, its variables keep these
(`Thread.KindsFollow`, `variables_follow_stores`). Nothing checks that they do: an integer variable
may hold a float (`variables_may_drift`).
-/

set_option autoImplicit false

namespace SheepScene

variable {W Body : Type}

/-- A value that is converted to a kind has it. -/
theorem Value.kind_of_coerce {table : Array String} {pc : Nat} {operation : String} {kind : Kind}
    {v v' : Value} (h : v.coerce table pc operation kind = .ok v') : v'.kind = kind := by
  unfold Value.coerce at h
  cases kind with
  | int =>
    dsimp only at h
    split at h <;> cases h
    rfl
  | float =>
    dsimp only at h
    split at h <;> cases h
    rfl
  | string =>
    dsimp only at h
    split at h
    · cases htext : v.toText table pc with
      | error e =>
        rw [htext] at h
        cases h
      | ok text =>
        rw [htext] at h
        cases h
        rfl
    · cases h

namespace Thread

/-! ## Steps that are no stores -/

namespace Exec

variable {α β : Type}

/-- Steps that leave the variables as they are, also where they stop. -/
structure LeavesVars (x : Exec α) : Prop where
  vars : ∀ t, (x.run.run t).2.vars = t.vars

/-- Two programs in sequence leave the variables alone if both do. -/
theorem LeavesVars.bind {x : Exec α} {f : α → Exec β} (hx : LeavesVars x)
    (hf : ∀ a, LeavesVars (f a)) : LeavesVars (x >>= f) := by
  refine ⟨fun t => ?_⟩
  have first := hx.vars t
  rw [run_bind]
  rcases hrun : x.run.run t with ⟨e | a, t'⟩
  · rwa [hrun] at first
  · rw [hrun] at first
    exact ((hf a).vars t').trans first

/-- Returning leaves the variables alone. -/
theorem leavesVars_pure (a : α) : LeavesVars (pure a) :=
  ⟨fun _ => rfl⟩

/-- Throwing leaves the variables alone. -/
theorem leavesVars_throw (e : Stop) : LeavesVars (throw e : Exec α) :=
  ⟨fun _ => rfl⟩

/-- Reading the thread leaves the variables alone. -/
theorem leavesVars_get : LeavesVars (get : Exec Thread) :=
  ⟨fun _ => rfl⟩

/-- Passing a script error on leaves the variables alone. -/
theorem leavesVars_lift (x : Except ScriptError α) : LeavesVars (lift x) := by
  cases x <;> exact ⟨fun _ => rfl⟩

/-- Passing a fault on leaves the variables alone. -/
theorem leavesVars_liftStack (x : Except Fault α) : LeavesVars (liftStack x) := by
  cases x <;> exact ⟨fun _ => rfl⟩

/-- Converting a number leaves the variables alone. -/
theorem leavesVars_number (pc : Nat) (operation : String) (convert : Value → Option α)
    (v : Value) : LeavesVars (number pc operation convert v) := by
  unfold number
  split <;> exact ⟨fun _ => rfl⟩

/-- Pushing leaves the variables alone. -/
theorem leavesVars_push (v : Value) : LeavesVars (push v) := by
  refine leavesVars_get.bind fun t => (leavesVars_liftStack _).bind fun stack => ?_
  exact ⟨fun _ => rfl⟩

/-- Popping leaves the variables alone. -/
theorem leavesVars_pop : LeavesVars pop := by
  refine leavesVars_get.bind fun t => (leavesVars_liftStack _).bind fun ⟨v, stack⟩ => ?_
  exact LeavesVars.bind ⟨fun _ => rfl⟩ fun _ => leavesVars_pure v

/-- Jumping leaves the variables alone. -/
theorem leavesVars_jump (pc : Nat) (target : UInt32) : LeavesVars (jump pc target) := by
  have moves : LeavesVars (modify fun t => { t with pc := target.toNat }) :=
    ⟨fun _ => rfl⟩
  refine leavesVars_get.bind fun t => ?_
  split
  · exact (leavesVars_throw _).bind fun _ => moves
  · exact moves

/-- Instructions other than stores leave the variables as they are. -/
theorem leavesVars_execute (isComplete : WaitHandle → Bool) (pc : Nat) {i : Instruction}
    (other : ∀ kind index, i ≠ .store kind index) : LeavesVars (execute isComplete pc i) := by
  have proceeds : LeavesVars (pure Flow.proceed) := leavesVars_pure _
  have pushes : ∀ v, LeavesVars (do push v; return Flow.proceed) :=
    fun v => (leavesVars_push v).bind fun _ => proceeds
  have jumps : ∀ target, LeavesVars (do jump pc target; return Flow.proceed) :=
    fun target => (leavesVars_jump pc target).bind fun _ => proceeds
  have pop2 : ∀ {f : Value → Value → Exec Flow}, (∀ a b, LeavesVars (f a b)) →
      LeavesVars (do let b ← pop; let a ← pop; f a b) :=
    fun hf => leavesVars_pop.bind fun b => leavesVars_pop.bind fun a => hf a b
  unfold execute
  refine leavesVars_get.bind fun t => ?_
  cases i with
  | store kind index => exact absurd rfl (other kind index)
  | sitnSpin | debugBreakpoint | callSysFunction | yield | returnV => exact leavesVars_pure _
  | branch target | branchGoto target => exact jumps target
  | branchIfZero target =>
    refine leavesVars_pop.bind fun v => ?_
    dsimp only
    split
    · exact jumps target
    · exact proceeds
  | beginWait => exact LeavesVars.bind ⟨fun _ => rfl⟩ fun _ => proceeds
  | endWait =>
    refine LeavesVars.bind ⟨fun _ => rfl⟩ fun _ => leavesVars_get.bind fun t => ?_
    split
    · refine LeavesVars.bind ⟨fun _ => rfl⟩ fun _ => leavesVars_get.bind fun t => ?_
      split
      · exact leavesVars_pure _
      · exact proceeds
    · exact proceeds
  | load kind index =>
    refine leavesVars_get.bind fun t => ?_
    split
    · exact leavesVars_throw _
    · exact (leavesVars_lift _).bind pushes
  | pushI | pushF | pushS => exact pushes _
  | pop count =>
    refine leavesVars_get.bind fun t => (leavesVars_liftStack _).bind fun stack => ?_
    exact LeavesVars.bind ⟨fun _ => rfl⟩ fun _ => proceeds
  | binary op flavour => exact pop2 fun a b => (leavesVars_lift _).bind pushes
  | negate flavour => exact leavesVars_pop.bind fun v => (leavesVars_lift _).bind pushes
  | iToF | fToI =>
    exact leavesVars_pop.bind fun v => (leavesVars_number _ _ _ v).bind fun _ => pushes _
  | modulo =>
    refine pop2 fun a b => (leavesVars_number _ _ _ b).bind fun y => ?_
    refine (leavesVars_number _ _ _ a).bind fun x => ?_
    dsimp only
    split
    · exact (leavesVars_throw _).bind fun _ => pushes _
    · exact pushes _
  | and | or => exact pop2 fun a b => pushes _
  | not => exact leavesVars_pop.bind fun a => pushes _
  | getString => exact leavesVars_pop.bind fun v => (leavesVars_lift _).bind pushes

/-- Collecting the arguments of a call leaves the variables alone. -/
theorem leavesVars_callArguments (table : HostTable Body) (pc : Nat) (index : UInt32) :
    LeavesVars (callArguments table pc index) := by
  unfold callArguments
  refine leavesVars_get.bind fun t => ?_
  dsimp only
  split
  · split
    · rename_i f _
      refine leavesVars_pop.bind fun v => ?_
      cases v with
      | int count =>
        refine leavesVars_get.bind fun t' => ?_
        have taken : ∀ coerced : Except ScriptError (List Value), LeavesVars (do
            modify fun t => { t with stack := t'.stack.without f.args.length }
            let args ← lift coerced
            return (f, args)) := fun coerced =>
          LeavesVars.bind ⟨fun _ => rfl⟩ fun _ =>
            (leavesVars_lift coerced).bind fun _ => leavesVars_pure _
        split
        · exact (leavesVars_throw _).bind fun _ => taken _
        · exact taken _
      | float x | string s | offset i => exact leavesVars_throw _
    · exact leavesVars_throw _
  · exact leavesVars_throw _

/-- Taking a reply leaves the variables alone. -/
theorem leavesVars_takeReply (pc : Nat) (kind : Option Kind) (reply : Reply) :
    LeavesVars (takeReply pc kind reply) := by
  have answered : LeavesVars (replyValue pc kind reply.value >>= push) := by
    refine LeavesVars.bind ?_ leavesVars_push
    unfold replyValue
    split
    · exact leavesVars_pure _
    · exact leavesVars_get.bind fun _ => leavesVars_lift _
    · exact leavesVars_pure _
  unfold takeReply
  split
  · refine leavesVars_get.bind fun t => ?_
    split
    · exact LeavesVars.bind ⟨fun _ => rfl⟩ fun _ => answered
    · exact answered
  · exact answered

end Exec

/-! ## Stores -/

/-- What a store does: the value on top of the stack, converted to the kind of the instruction,
replaces the value of a variable that exists. -/
theorem execute_store (isComplete : WaitHandle → Bool) (pc : Nat) (kind : Kind) (index : UInt32)
    (t : Thread) :
    (execute isComplete pc (.store kind index)).run.run t =
      match t.stack.pop with
      | .error f => (.error (.fault f), t)
      | .ok (top, stack) =>
        match top.coerce t.script.strings pc "Store" kind with
        | .error e => (.error (.error e), { t with stack })
        | .ok v =>
          if t.vars.size ≤ index.toNat then
            (.error (.error (.badVariable pc index)), { t with stack })
          else (.ok .proceed, { t with stack, vars := t.vars.setIfInBounds index.toNat v }) := by
  unfold execute pop
  simp only [Exec.run_bind, Exec.run_get]
  cases t.stack.pop with
  | error f => rfl
  | ok popped =>
    obtain ⟨top, stack⟩ := popped
    simp only [liftStack, Exec.run_pure, Exec.run_modify]
    cases top.coerce t.script.strings pc "Store" kind with
    | error e => rfl
    | ok v =>
      simp only [lift, Exec.run_pure]
      by_cases outside : t.vars.size ≤ index.toNat
      · rw [if_pos outside, if_pos outside]
        rfl
      · rw [if_neg outside, if_neg outside]
        rfl

/-- A completed store: it takes the value on top of the stack, converts it to the kind of the
instruction, and gives it to a variable that exists. -/
structure Stored (t t' : Thread) (kind : Kind) (index : UInt32) (v : Value) : Prop where
  top : ∃ top, t.stack.top? = some top ∧ top.coerce t.script.strings t.pc "Store" kind = .ok v
  inside : index.toNat < t.vars.size
  vars : t'.vars = t.vars.setIfInBounds index.toNat v

variable {host : Host W Body} {table : HostTable Body}

/-- A step leaves the variables as they are, unless it is a store that proceeds. -/
theorem step_vars {t t' : Thread} {r : Except ScriptError Flow} {w w' : W}
    (h : step host table t w = .ok (t', r) w') :
    t'.vars = t.vars ∨ ∃ kind index next v,
      Instruction.decode t.script.bytecode t.pc = .ok (.store kind index, next) ∧
        r = .ok .proceed ∧ Stored t t' kind index v := by
  rcases step_cases h with ⟨-, rfl, -⟩ | ⟨-, ⟨e, -, rfl, -⟩ |
    ⟨kind, index, next, -, hcall⟩ | ⟨i, next, hdec, -, hrun⟩⟩
  · exact .inl rfl
  · exact .inl rfl
  · left
    have args := (Exec.leavesVars_callArguments table t.pc index).vars { t with pc := next }
    rcases callHost_cases hcall with ⟨e, -, hfound⟩ |
      ⟨f, found, t₁, hfound, ⟨e, -, -, rfl⟩ | ⟨reply, -, htake⟩⟩
    · rwa [hfound] at args
    · rwa [hfound] at args
    · rw [hfound] at args
      have taken := (Exec.leavesVars_takeReply t.pc kind reply).bind
        fun _ => Exec.leavesVars_pure Flow.proceed
      obtain ⟨-, rfl, -⟩ := runExec_ok htake
      exact (taken.vars t₁).trans args
  · by_cases store : ∃ kind index, i = .store kind index
    · obtain ⟨kind, index, rfl⟩ := store
      unfold runExec at hrun
      rw [execute_store] at hrun
      unfold Stack.pop at hrun
      dsimp only at hrun
      cases htop : t.stack.top? with
      | none =>
        rw [htop] at hrun
        cases hrun
      | some top =>
        simp only [htop] at hrun
        cases hvalue : top.coerce t.script.strings t.pc "Store" kind with
        | error e =>
          simp only [hvalue] at hrun
          cases hrun
          exact .inl rfl
        | ok v =>
          simp only [hvalue] at hrun
          by_cases outside : t.vars.size ≤ index.toNat
          · rw [if_pos outside] at hrun
            cases hrun
            exact .inl rfl
          · rw [if_neg outside] at hrun
            cases hrun
            exact .inr ⟨kind, index, next, v, hdec, rfl, ⟨top, htop, hvalue⟩,
              Nat.lt_of_not_le outside, rfl⟩
    · left
      obtain ⟨-, rfl, -⟩ := runExec_ok hrun
      have other := Exec.leavesVars_execute (host.isComplete w) t.pc
        fun kind index same => store ⟨kind, index, same⟩
      exact other.vars _

end Thread

/-! ## Kinds -/

/-- Whether a script has, anywhere in its code, a store of a kind to a variable. -/
def Script.HasStore (s : Script) (i : Nat) (kind : Kind) : Prop :=
  ∃ pc index next, Instruction.decode s.bytecode pc = .ok (.store kind index, next) ∧
    index.toNat = i

/-- Whether every store of a script names the kind with which its variable is declared. -/
def Script.StoresAsDeclared (s : Script) : Prop :=
  ∀ i kind declared, s.HasStore i kind → s.vars[i]? = some declared → kind = declared.kind

namespace Thread

/-- There is a value for each declared variable. It is the value with which the variable is declared
or one of a kind that a store names for the variable; and it is of the declared kind if all stores
name that. -/
structure KindsFollow (t : Thread) : Prop where
  size : t.vars.size = t.script.vars.size
  values : ∀ i v declared, t.vars[i]? = some v → t.script.vars[i]? = some declared →
    v = declared.initial ∨ t.script.HasStore i v.kind
  declared : t.script.StoresAsDeclared → t.vars.map Value.kind = t.script.vars.map Variable.kind

/-- The kinds follow the declarations and the stores, spelled out variable by variable. -/
theorem kindsFollow_iff {t : Thread} : t.KindsFollow ↔ t.vars.size = t.script.vars.size ∧
    ∀ i v declared, t.vars[i]? = some v → t.script.vars[i]? = some declared →
      v = declared.initial ∨ t.script.HasStore i v.kind := by
  refine ⟨fun h => ⟨h.size, h.values⟩, fun ⟨size, values⟩ => ⟨size, values, fun agree => ?_⟩⟩
  refine Array.ext (by simp [size]) fun i hi hi' => ?_
  rw [Array.size_map] at hi hi'
  rw [Array.getElem_map, Array.getElem_map]
  rcases values i _ _ (Array.getElem?_eq_getElem hi) (Array.getElem?_eq_getElem hi') with
    initial | stored
  · rw [initial]
    rfl
  · exact agree i _ _ stored (Array.getElem?_eq_getElem hi')

/-- Steps keep this: a store leaves the values of other variables, and is itself one of the code. -/
theorem invariant_kindsFollow (host : Host W Body) : Invariant host KindsFollow where
  step {table t w t' r w'} follow h := by
    obtain ⟨size, values⟩ := kindsFollow_iff.1 follow
    rw [kindsFollow_iff, step_script h]
    rcases step_vars h with same | ⟨kind, index, next, v, hdec, -, stored⟩
    · rw [same]
      exact ⟨size, values⟩
    · rw [stored.vars]
      refine ⟨by rw [Array.size_setIfInBounds, size], fun i u declared hu hdeclared => ?_⟩
      obtain ⟨top, -, hvalue⟩ := stored.top
      rw [Array.getElem?_setIfInBounds] at hu
      split at hu
      · rename_i here
        rw [if_pos (here ▸ stored.inside)] at hu
        cases hu
        have named : t.script.HasStore i kind := ⟨t.pc, index, next, hdec, here⟩
        rw [← Value.kind_of_coerce hvalue] at named
        exact .inr named
      · exact values i u declared hu hdeclared
  resume _ _ follow := ⟨follow.size, follow.values, follow.declared⟩

/-- At the start every variable holds its declared value. -/
theorem kindsFollow_start {id : UInt32} {script : Script} {function : String} {t : Thread}
    (h : Thread.start id script function = .ok t) : t.KindsFollow := by
  unfold Thread.start at h
  split at h
  · cases h
  · cases h
    refine kindsFollow_iff.2 ⟨by simp, fun i v declared hv hdeclared => .inl ?_⟩
    rw [Array.getElem?_map, hdeclared] at hv
    cases hv
    rfl

/-- In every thread that schedulers can reach, the kinds follow the declarations and the stores. -/
theorem Reachable.kindsFollow {host : Host W Body} {t : Thread} (h : t.Reachable host) :
    t.KindsFollow := by
  induction h with
  | start hstart => exact kindsFollow_start hstart
  | run _ hrun ih => exact (invariant_kindsFollow host).run ih hrun
  | release _ _ ih => exact (invariant_kindsFollow host).resume _ _ ih

end Thread

/-- Variables follow the stores of the code. In every thread that a scheduler ever has, before and
after each run and at all moments of one, and in every evaluation, a variable holds the value it was
declared with or one of a kind that some store of the code names for it; a step that changes a
variable is a completed store, whose value has the kind that the instruction names. Where all stores
of a script name the declared kinds, the variables keep them. -/
theorem variables_follow_stores (host : Host W Body) :
    (∀ table budget calls s,
      Scheduler.Course host { Scheduler.ofTable table with budget } calls s →
        ∀ t ∈ s.threads, t.KindsFollow) ∧
    (∀ t : Thread, t.Reachable host → t.KindsFollow ∧
      ∀ table budget w, ∀ m ∈ t.moments host table budget w, m.thread.KindsFollow) ∧
    (∀ (s : Scheduler Body) script function w,
      ∀ m ∈ s.evaluationMoments host script function w, m.thread.KindsFollow) ∧
    ∀ (t : Thread) table w t' r w', t.step host table w = .ok (t', r) w' →
      t'.vars = t.vars ∨ ∃ kind index next v,
        Instruction.decode t.script.bytecode t.pc = .ok (.store kind index, next) ∧
          t.Stored t' kind index v ∧ v.kind = kind := by
  refine ⟨?_, fun t h => ⟨h.kindsFollow, ?_⟩, ?_, ?_⟩
  · intro table budget calls s run t ht
    exact (run.reachable (fun t ht => absurd ht (Array.not_mem_empty t)) t ht).kindsFollow
  · intro table budget w
    exact (Thread.invariant_kindsFollow host).moments h.kindsFollow
  · intro s script function w m hm
    unfold Scheduler.evaluationMoments at hm
    split at hm
    · exact absurd hm List.not_mem_nil
    · rename_i t hstart
      exact (Thread.invariant_kindsFollow host).momentsToEnd (Thread.kindsFollow_start hstart) m hm
  · intro t table w t' r w' hstep
    rcases Thread.step_vars hstep with same | ⟨kind, index, next, v, hdec, -, stored⟩
    · exact .inl same
    · obtain ⟨top, -, hvalue⟩ := stored.top
      exact .inr ⟨kind, index, next, v, hdec, stored, Value.kind_of_coerce hvalue⟩

/-- A script that declares an integer and stores a float in it: `PushF 2.5`, `StoreF 0`,
`ReturnV`. -/
def drift : Script :=
  { Script.blank "drift" with
    vars := #[⟨"n", .int 0⟩]
    functions := #[⟨"Main", 0⟩]
    bytecode := #[0x14, 0, 0, 0x20, 0x40, 0x0E, 0, 0, 0, 0, 0x0B] }

/-- The thread of that script before and after its only run. -/
def drifter (pc : Nat) (status : ThreadStatus) (v : Value) : Thread where
  id := 1
  script := drift
  function := "Main"
  pc
  stack := .empty
  vars := #[v]
  status
  waitDepth := 0
  waits := []

/-- The drifting script starts with its variable at zero. -/
theorem start_drift : Thread.start 1 drift "Main" = .ok (drifter 0 .ready (.int 0)) := by
  have offset : drift.functionOffset? "Main" = some 0 := rfl
  have initial : drift.vars.map (·.initial) = #[.int 0] := by simp [drift]
  unfold Thread.start
  rw [offset, initial]
  rfl

/-- The store of the script is one of floats, so the variable follows it, in the thread that is
started. -/
theorem variables_follow_stores_drift :
    Scheduler.Course doorHost { Scheduler.ofTable doorWatch.table with budget := 10 } [.started 1]
        (porter #[drifter 11 .finished (.float (.ofBits 0x40200000))] 2) ∧
      (drifter 11 .finished (.float (.ofBits 0x40200000))).KindsFollow ∧
      drift.HasStore 0 .float := by
  have start : (porter #[] 1).start doorHost drift "Main" false
      = .ok (.ok 1, porter #[drifter 11 .finished (.float (.ofBits 0x40200000))] 2) false := by
    unfold Scheduler.start
    rw [show (porter #[] 1).nextId = 1 from rfl, start_drift]
    rfl
  have run := Scheduler.Course.call .here (.started start)
  exact ⟨run, (variables_follow_stores doorHost).1 _ _ _ _ run _ (by simp [porter]),
    5, 0, 10, by decide, rfl⟩

/-- Threads do not keep the kinds that variables are declared with: nothing relates the kind that a
store names to the declared one. -/
theorem variables_may_drift :
    ¬ ∀ t : Thread, t.Reachable doorHost →
      t.vars.map Value.kind = t.script.vars.map Variable.kind := by
  intro keeps
  have started : (drifter 0 .ready (.int 0)).Reachable doorHost :=
    .start start_drift
  have run : (drifter 0 .ready (.int 0)).run doorHost doorWatch.table 10 true
      = .ok (drifter 11 .finished (.float (.ofBits 0x40200000)), 3) true := rfl
  have same := keeps _ (.run started run)
  simp [drifter, drift, Value.kind, Variable.kind] at same

end SheepScene
