import SheepScene.Machine.Scheduler
import SheepScene.Proofs.Machine.ThreadSteps

/-!
# What runs establish

A run of `EStateM` is described by what holds before it and what holds of its result and of the
state after it. `Ensures P x Q` says so of a run that comes to an end; a run that ends in a fault
leaves no state behind, and nothing is said of it. The rules follow the ways in which runs are put
together, and the machine keeps whatever its host functions and its error reports keep:
`keeps_threadRun`, `ensures_update` and their like.
-/

set_option autoImplicit false

namespace SheepScene

variable {ε σ α β : Type}

/-- A run that starts where `P` holds and comes to an end has a result and a state as `Q` says. -/
def Ensures (P : σ → Prop) (x : EStateM ε σ α) (Q : α → σ → Prop) : Prop :=
  ∀ s, P s → ∀ a s', x s = .ok a s' → Q a s'

/-- A run that keeps `I`. -/
abbrev Keeps (I : σ → Prop) (x : EStateM ε σ α) : Prop :=
  Ensures I x fun _ => I

/-- Two runs in turn come to an end where each of them does. -/
theorem bind_ok {x : EStateM ε σ α} {f : α → EStateM ε σ β} {s s' : σ} {b : β}
    (h : (x >>= f) s = .ok b s') : ∃ a t, x s = .ok a t ∧ f a t = .ok b s' := by
  change EStateM.bind x f s = _ at h
  unfold EStateM.bind at h
  cases hx : x s with
  | ok a t =>
    rw [hx] at h
    exact ⟨a, t, rfl, h⟩
  | error e t =>
    rw [hx] at h
    cases h

/-- Where the first of two runs in turn comes to an end, the second goes on. -/
theorem bind_of_ok {x : EStateM ε σ α} {f : α → EStateM ε σ β} {s t : σ} {a : α}
    (h : x s = .ok a t) : (x >>= f) s = f a t := by
  change EStateM.bind x f s = _
  unfold EStateM.bind
  rw [h]

/-- Where the first of two runs in turn ends in a fault, both do. -/
theorem bind_of_error {x : EStateM ε σ α} {f : α → EStateM ε σ β} {s t : σ} {e : ε}
    (h : x s = .error e t) : (x >>= f) s = .error e t := by
  change EStateM.bind x f s = _
  unfold EStateM.bind
  rw [h]

/-- Two runs that come to the same do so for what is made of the answer. -/
theorem map_of_eq {f : α → β} {x y : EStateM ε σ α} {s t : σ} (h : x s = y t) :
    (f <$> x) s = (f <$> y) t := by
  change EStateM.map f x s = EStateM.map f y t
  unfold EStateM.map
  rw [h]

/-- What is made of the answer of a run comes of the answer. -/
theorem map_ok {f : α → β} {x : EStateM ε σ α} {s s' : σ} {b : β}
    (h : (f <$> x) s = .ok b s') : ∃ a, x s = .ok a s' ∧ f a = b := by
  change EStateM.map f x s = _ at h
  unfold EStateM.map at h
  cases hx : x s with
  | ok a t =>
    rw [hx] at h
    cases h
    exact ⟨a, rfl, rfl⟩
  | error e t =>
    rw [hx] at h
    cases h

/-- What is made of the answer of a run comes to an end with the run. -/
theorem map_of_ok {f : α → β} {x : EStateM ε σ α} {s s' : σ} {a : α} (h : x s = .ok a s') :
    (f <$> x) s = .ok (f a) s' := by
  change EStateM.map f x s = _
  unfold EStateM.map
  rw [h]

/-- Whether a run comes to an end that passes a check. -/
def passes (x : EStateM ε σ α) (s : σ) (check : α → σ → Bool) : Bool :=
  match x s with
  | .ok a s' => check a s'
  | .error _ _ => false

/-- A run that passes a check comes to an end at which it holds. -/
theorem exists_of_passes {x : EStateM ε σ α} {s : σ} {check : α → σ → Bool}
    (h : passes x s check = true) : ∃ a s', x s = .ok a s' ∧ check a s' = true := by
  unfold passes at h
  split at h
  · exact ⟨_, _, by assumption, h⟩
  · cases h

/-! ## Rules -/

/-- A result without a run establishes what holds already. -/
theorem ensures_pure {P : σ → Prop} {Q : α → σ → Prop} {a : α} (h : ∀ s, P s → Q a s) :
    Ensures P (pure a : EStateM ε σ α) Q := by
  intro s hs b s' hrun
  cases hrun
  exact h s hs

/-- What holds between two runs joins them. -/
theorem ensures_bind {P : σ → Prop} {Q : α → σ → Prop} {R : β → σ → Prop}
    {x : EStateM ε σ α} {f : α → EStateM ε σ β} (hx : Ensures P x Q)
    (hf : ∀ a, Ensures (Q a) (f a) R) : Ensures P (x >>= f) R := by
  intro s hs b s' hrun
  obtain ⟨a, t, hok, hrest⟩ := bind_ok hrun
  exact hf a t (hx s hs a t hok) b s' hrest

/-- To answer keeps everything. -/
theorem keeps_pure {I : σ → Prop} (a : α) : Keeps I (pure a : EStateM ε σ α) :=
  ensures_pure fun _ hs => hs

/-- Two runs in turn keep what each of them keeps. -/
theorem keeps_bind {I : σ → Prop} {x : EStateM ε σ α} {f : α → EStateM ε σ β} (hx : Keeps I x)
    (hf : ∀ a, Keeps I (f a)) : Keeps I (x >>= f) :=
  ensures_bind hx hf

/-- A run that ends in a fault establishes anything. -/
theorem ensures_throw {P : σ → Prop} {Q : α → σ → Prop} (e : ε) :
    Ensures P (throw e : EStateM ε σ α) Q := by
  intro s _ a s' hrun
  cases hrun

/-- Looking at the state. -/
theorem ensures_get {P : σ → Prop} : Ensures P (get : EStateM ε σ σ) fun a s => a = s ∧ P s := by
  intro s hs a s' hrun
  cases hrun
  exact ⟨rfl, hs⟩

/-- Changing the state. -/
theorem ensures_modify {P : σ → Prop} {Q : Unit → σ → Prop} {f : σ → σ}
    (h : ∀ s, P s → Q () (f s)) : Ensures P (modify f : EStateM ε σ Unit) Q := by
  intro s hs a s' hrun
  cases hrun
  exact h s hs

/-- A change of the state keeps what it keeps. -/
theorem keeps_modify {I : σ → Prop} {f : σ → σ} (h : ∀ s, I s → I (f s)) :
    Keeps I (modify f : EStateM ε σ Unit) :=
  ensures_modify h

/-- Changing the state with an answer. -/
theorem ensures_modifyGet {P : σ → Prop} {Q : α → σ → Prop} {f : σ → α × σ}
    (h : ∀ s, P s → Q (f s).1 (f s).2) : Ensures P (modifyGet f : EStateM ε σ α) Q := by
  intro s hs a s' hrun
  cases hrun
  exact h s hs

/-- More may be known before a run, and less need be known after it. -/
theorem Ensures.imp {P P' : σ → Prop} {Q Q' : α → σ → Prop} {x : EStateM ε σ α}
    (h : Ensures P x Q) (before : ∀ s, P' s → P s) (after : ∀ a s, Q a s → Q' a s) :
    Ensures P' x Q' :=
  fun s hs a s' hrun => after a s' (h s (before s hs) a s' hrun)

/-- A run that is chosen by looking at the state. -/
theorem ensures_getBind {P : σ → Prop} {Q : α → σ → Prop} {f : σ → EStateM ε σ α}
    (h : ∀ s, P s → Ensures (fun t => t = s) (f s) Q) :
    Ensures P ((get : EStateM ε σ σ) >>= f) Q := by
  refine ensures_bind ensures_get ?_
  rintro s t ⟨rfl, ht⟩ a s' hrun
  exact h s ht s rfl a s' hrun

/-- A run that is chosen by looking at the state. -/
theorem keeps_getBind {I : σ → Prop} {f : σ → EStateM ε σ α} (h : ∀ s, I s → Keeps I (f s)) :
    Keeps I ((get : EStateM ε σ σ) >>= f) :=
  ensures_bind ensures_get fun s => fun t ht a s' hrun => h s (ht.1 ▸ ht.2) t ht.2 a s' hrun

/-- A run whose start is known may use everything that holds there. -/
theorem ensures_at {P : σ → Prop} {Q : α → σ → Prop} {x : EStateM ε σ α} {s : σ}
    (hs : P s) (h : Ensures P x Q) : Ensures (fun t => t = s) x Q := by
  rintro _ rfl a s' hrun
  exact h _ hs a s' hrun

/-- A loop over a list keeps what each round keeps. -/
theorem keeps_forM {I : σ → Prop} {f : α → EStateM ε σ Unit} {l : List α}
    (h : ∀ a ∈ l, Keeps I (f a)) : Keeps I (l.forM f) := by
  induction l with
  | nil => exact ensures_pure fun _ hs => hs
  | cons a l ih =>
    refine ensures_bind (h a (by simp)) fun _ => ih ?_
    intro b hb
    exact h b (by simp [hb])

/-! ## The machine -/

/-- The function of a host call is one of the table. -/
theorem Thread.mem_of_callArguments {Body : Type} {table : HostTable Body} {pc : Nat}
    {index : UInt32} {t t' : Thread} {f : HostFunction Body} {args : List Value}
    (h : (Thread.callArguments table pc index).run.run t = (.ok (f, args), t')) :
    f ∈ table.functions := by
  have frame : Exec.Frame (fun _ _ => True) fun _ => True :=
    ⟨fun _ => trivial, fun _ _ => trivial, fun _ _ => trivial, fun _ _ _ => trivial,
      fun _ => trivial⟩
  exact (Exec.respects_callArguments frame table pc index).answer (congrArg Prod.fst h)

/-- A host call fails before the function is called, or the function answers with an error, or its
answer is taken. -/
theorem Thread.callHost_cases {W Body : Type} {host : Host W Body} {table : HostTable Body}
    {t t' : Thread} {pc : Nat} {kind : Option Kind} {index : UInt32}
    {r : Except ScriptError Flow} {w w' : W}
    (h : Thread.callHost host table t pc kind index w = .ok (t', r) w') :
    (∃ e, r = .error e ∧
      (Thread.callArguments table pc index).run.run t = (.error (.error e), t')) ∨
    ∃ f args t₁, (Thread.callArguments table pc index).run.run t = (.ok (f, args), t₁) ∧
      ((∃ e, host.call f.body args w = .ok (.error e) w' ∧ r = .error e ∧ t' = t₁) ∨
        ∃ reply, host.call f.body args w = .ok (.ok reply) w' ∧
          Thread.runExec t₁ (do Thread.takeReply pc kind reply; return Flow.proceed) w'
            = .ok (t', r) w') := by
  obtain ⟨⟨t₁, e | ⟨f, args⟩⟩, w₁, hfound, hrest⟩ := bind_ok h
  · cases hrest
    obtain ⟨rfl, hthread, -⟩ := Thread.runExec_ok hfound
    exact .inl ⟨e, rfl, Prod.ext (Thread.runExec_error hfound rfl) hthread.symm⟩
  · obtain ⟨rfl, hthread, hargs⟩ := Thread.runExec_ok hfound
    refine .inr ⟨f, args, t₁, Prod.ext (hargs _ rfl) hthread.symm, ?_⟩
    obtain ⟨e | reply, w₂, hcall, hanswer⟩ := bind_ok hrest
    · cases hanswer
      exact .inl ⟨e, hcall, rfl, rfl⟩
    · obtain ⟨rfl, -, -⟩ := Thread.runExec_ok hanswer
      exact .inr ⟨reply, hcall, hanswer⟩

/-- A step finds the end of the code, or cannot read an instruction, or calls the host, or is one of
the thread alone. -/
theorem Thread.step_cases {W Body : Type} {host : Host W Body} {table : HostTable Body}
    {t t' : Thread} {r : Except ScriptError Flow} {w w' : W}
    (h : Thread.step host table t w = .ok (t', r) w') :
    (t.script.bytecode.size ≤ t.pc ∧ t' = t ∧ r = .ok .finish) ∨
    t.pc < t.script.bytecode.size ∧
      ((∃ e, Instruction.decode t.script.bytecode t.pc = .error e ∧ t' = t ∧ r = .error e) ∨
      (∃ kind index next,
        Instruction.decode t.script.bytecode t.pc = .ok (.callSysFunction kind index, next) ∧
        Thread.callHost host table { t with pc := next } t.pc kind index w = .ok (t', r) w') ∨
      ∃ i next, Instruction.decode t.script.bytecode t.pc = .ok (i, next) ∧
        (∀ kind index, i ≠ .callSysFunction kind index) ∧
        Thread.runExec { t with pc := next } (Thread.execute (host.isComplete w) t.pc i) w
          = .ok (t', r) w') := by
  unfold Thread.step at h
  split at h
  · rename_i hend
    cases h
    exact .inl ⟨hend, rfl, rfl⟩
  rename_i hinside
  refine .inr ⟨Nat.lt_of_not_le hinside, ?_⟩
  cases hdec : Instruction.decode t.script.bytecode t.pc with
  | error e =>
    simp only [hdec] at h
    cases h
    exact .inl ⟨e, rfl, rfl, rfl⟩
  | ok found =>
    obtain ⟨i, next⟩ := found
    simp only [hdec] at h
    by_cases hcall : ∃ kind index, i = .callSysFunction kind index
    · obtain ⟨kind, index, rfl⟩ := hcall
      exact .inr (.inl ⟨kind, index, next, rfl, h⟩)
    · refine .inr (.inr ⟨i, next, rfl, fun kind index hi => hcall ⟨kind, index, hi⟩, ?_⟩)
      cases i
      case callSysFunction kind index => exact absurd ⟨_, _, rfl⟩ hcall
      all_goals exact h

/-- A host call, however it ends, respects a relation that neither its arguments nor the handles
that are collected can break. -/
theorem Thread.callHost_respects {R : Thread → Thread → Prop} {E : ScriptError → Prop}
    (frame : Thread.Exec.Frame R E) (waits : ∀ t waits, R t { t with waits }) {W Body : Type}
    {host : Host W Body} {table : HostTable Body} {t t' : Thread} {pc : Nat} {kind : Option Kind}
    {index : UInt32} {r : Except ScriptError Flow} {w w' : W}
    (h : Thread.callHost host table t pc kind index w = .ok (t', r) w') : R t t' := by
  have args := (Thread.Exec.respects_callArguments frame table pc index).thread t
  rcases Thread.callHost_cases h with ⟨e, -, hfound⟩ |
    ⟨f, found, t₁, hfound, ⟨e, -, -, rfl⟩ | ⟨reply, -, htake⟩⟩
  · rwa [hfound] at args
  · rwa [hfound] at args
  · rw [hfound] at args
    have taken := Thread.Exec.respects_bind frame
      (Thread.Exec.respects_takeReply frame waits pc kind reply)
      fun _ _ => Thread.Exec.respects_pure (V := fun _ => True) (a := Flow.proceed) frame trivial
    obtain ⟨-, rfl, -⟩ := Thread.runExec_ok htake
    exact frame.trans args (taken.thread t₁)

/-- A relation between threads that steps cannot break: it looks at nothing that they change. -/
structure Thread.StepFrame (R : Thread → Thread → Prop) : Prop
    extends Thread.Exec.JumpFrame R fun _ => True where
  waits : ∀ t waits, R t { t with waits }
  waitDepth : ∀ t waitDepth, R t { t with waitDepth }

/-- What the parts of an instruction keep of a thread is kept by the instruction. -/
theorem Thread.StepFrame.execute {R : Thread → Thread → Prop} (frame : Thread.StepFrame R)
    (isComplete : WaitHandle → Bool) (pc : Nat) (i : Instruction) (t : Thread) :
    R t ((Thread.execute isComplete pc i).run.run t).2 := by
  by_cases hbegin : i = .beginWait
  · subst hbegin
    exact frame.waitDepth t _
  by_cases hend : i = .endWait
  · subst hend
    rw [Thread.execute_endWait]
    dsimp only
    by_cases hdepth : (if t.waitDepth = 0 then 0 else t.waitDepth - 1) = 0
    · rw [if_pos hdepth]
      exact frame.trans (frame.waitDepth t 0) (frame.waits _ _)
    · rw [if_neg hdepth]
      exact frame.waitDepth t _
  · exact (Thread.Exec.respects_execute frame.toFrame isComplete pc hbegin hend
      fun _ => frame.toJumpFrame).thread t

/-- What a step does to a thread. -/
theorem Thread.StepFrame.step {R : Thread → Thread → Prop} (frame : Thread.StepFrame R)
    {W Body : Type} {host : Host W Body} {table : HostTable Body} {t t' : Thread}
    {r : Except ScriptError Flow} {w w' : W}
    (h : Thread.step host table t w = .ok (t', r) w') : R t t' := by
  rcases Thread.step_cases h with ⟨-, rfl, -⟩ | ⟨-, ⟨e, -, rfl, -⟩ |
    ⟨kind, index, next, -, hcall⟩ | ⟨i, next, -, -, hrun⟩⟩
  · exact frame.refl _
  · exact frame.refl _
  · exact frame.trans (frame.pc t next) (Thread.callHost_respects frame.toFrame frame.waits hcall)
  · obtain ⟨-, rfl, -⟩ := Thread.runExec_ok hrun
    exact frame.trans (frame.pc t next) (frame.execute _ _ _ _)

section Machine

variable {W Body : Type} {host : Host W Body} {I : W → Prop}

/-- Steps of a thread alone leave the world as it is. -/
theorem keeps_runExec (t : Thread) (steps : Thread.Exec α) :
    Keeps I (Thread.runExec (W := W) t steps) := by
  intro w hw r w' hrun
  rw [(Thread.runExec_ok hrun).1]
  exact hw

variable {table : HostTable Body}
  (call : ∀ f ∈ table.functions, ∀ args, Keeps I (host.call f.body args))
  (report : ∀ message w, I w → I (host.report message w))

include call in
/-- A host call keeps what the functions of the table keep. -/
theorem keeps_callHost (t : Thread) (pc : Nat) (kind : Option Kind) (index : UInt32) :
    Keeps I (Thread.callHost host table t pc kind index) := by
  have found : Ensures I (Thread.runExec t (Thread.callArguments table pc index))
      fun r w => I w ∧ ∀ f args, r.2 = .ok (f, args) → f ∈ table.functions := by
    intro w hw r w' hrun
    obtain ⟨rfl, -, hok⟩ := Thread.runExec_ok hrun
    exact ⟨hw, fun f args hr => Thread.mem_of_callArguments (Prod.ext (hok _ hr) rfl)⟩
  unfold Thread.callHost
  refine ensures_bind found fun r => ?_
  obtain ⟨t', e | ⟨f, args⟩⟩ := r
  · exact ensures_pure fun _ hs => hs.1
  · intro w hw
    have hf := hw.2 f args rfl
    refine (ensures_bind (call f hf args) fun answer => ?_) w hw.1
    cases answer with
    | error e => exact ensures_pure fun _ hs => hs
    | ok reply => exact keeps_runExec t' _

include call in
/-- A step keeps what the functions of the table keep. -/
theorem keeps_step (t : Thread) : Keeps I (Thread.step host table t) := by
  unfold Thread.step
  split
  · exact ensures_pure fun _ hs => hs
  · split
    · exact ensures_pure fun _ hs => hs
    · split
      · exact keeps_callHost call _ _ _ _
      · exact ensures_getBind fun w hw => ensures_at hw (keeps_runExec _ _)

include call report in
/-- Running one instruction keeps what host functions and reports keep. -/
theorem keeps_advance (t : Thread) : Keeps I (Thread.advance host table t) := by
  unfold Thread.advance
  refine ensures_bind (keeps_step call t) fun r => ?_
  obtain ⟨t', e | flow⟩ := r
  · exact ensures_bind (ensures_modify fun w hw => report _ w hw) fun _ =>
      ensures_pure fun _ hs => hs
  · cases flow <;> exact ensures_pure fun _ hs => hs

include call report in
/-- Running up to a budget keeps what host functions and reports keep. -/
theorem keeps_runFor (budget executed : Nat) (t : Thread) :
    Keeps I (Thread.runFor host table budget executed t) := by
  induction budget generalizing executed t with
  | zero => exact ensures_pure fun _ hs => hs
  | succ budget ih =>
    refine ensures_bind (keeps_advance call report t) fun r => ?_
    obtain ⟨t', going⟩ := r
    cases going with
    | true => exact ih (executed + 1) t'
    | false => exact ensures_pure fun _ hs => hs

include call report in
/-- Letting a thread run keeps what host functions and reports keep. -/
theorem keeps_threadRun (budget : Nat) (t : Thread) : Keeps I (t.run host table budget) := by
  unfold Thread.run
  split
  · exact ensures_pure fun _ hs => hs
  · exact ensures_pure fun _ hs => hs
  · refine ensures_getBind fun w hw => ensures_at hw ?_
    dsimp only
    split
    · exact keeps_runFor call report _ _ _
    · exact ensures_pure fun _ hs => hs
  · exact keeps_runFor call report _ _ _

include call report in
/-- Running a thread to its end keeps what host functions and reports keep. -/
theorem keeps_runToEnd (budget : Nat) (t : Thread) : Keeps I (t.runToEnd host table budget) := by
  induction budget generalizing t with
  | zero => exact ensures_pure fun _ hs => hs
  | succ budget ih =>
    refine ensures_bind (keeps_advance call report t) fun r => ?_
    dsimp only
    split
    · exact ensures_pure fun _ hs => hs
    · exact ensures_pure fun _ hs => hs
    · exact ih _
    · exact ih _

include call report in
/-- Running threads one after the other keeps what host functions and reports keep. -/
theorem keeps_runAll (budget : Nat) (threads : List Thread) :
    Keeps I (Scheduler.runAll host table budget threads) := by
  induction threads with
  | nil => exact ensures_pure fun _ hs => hs
  | cons t rest ih =>
    refine ensures_bind (keeps_threadRun call report budget t) fun r => ?_
    exact ensures_bind ih fun rest => ensures_pure fun _ hs => hs

end Machine

section Scheduling

variable {W Body : Type} {host : Host W Body} {I : W → Prop} {s : Scheduler Body}
  (call : ∀ f ∈ s.table.functions, ∀ args, Keeps I (host.call f.body args))
  (report : ∀ message w, I w → I (host.report message w))

include call report in
/-- An update of the scheduler keeps what host functions and reports keep, and leaves the table as
it is. -/
theorem ensures_update :
    Ensures I (s.update host) fun s' w => s'.table = s.table ∧ I w :=
  ensures_bind (keeps_runAll call report _ _) fun _ => ensures_pure fun _ hs => ⟨rfl, hs⟩

include call report in
/-- Starting a thread keeps what host functions and reports keep, and leaves the table as it is. -/
theorem ensures_start (script : Script) (function : String) :
    Ensures I (s.start host script function) fun r w => r.2.table = s.table ∧ I w := by
  unfold Scheduler.start
  split
  · exact ensures_pure fun _ hs => ⟨rfl, hs⟩
  · exact ensures_bind (keeps_threadRun call report _ _) fun _ =>
      ensures_pure fun _ hs => ⟨rfl, hs⟩

include call report in
/-- Evaluating a function keeps what host functions and reports keep. -/
theorem keeps_evaluate (script : Script) (function : String) :
    Keeps I (s.evaluate host script function) := by
  unfold Scheduler.evaluate
  split
  · exact ensures_pure fun _ hs => hs
  · refine ensures_bind (keeps_runToEnd call report _ _) fun outcome => ?_
    cases outcome <;> exact ensures_pure fun _ hs => hs

end Scheduling

end SheepScene
