import SheepScene.Proofs.Machine.Bookkeeping
import SheepScene.Proofs.Machine.Rounds

/-!
# The states of threads

Between two runs a thread is in one of few states (`Thread.Sound`), whatever its script is like. A
run settles the status of the thread: it agrees with a run that marks the thread as running and
takes the mark away where it ends (`Thread.runMarked_agrees`). A step leaves a thread where it is or
takes it to a place in the code or at its end (`Thread.step_place`), and only closing a block of
which something is pending makes it wait. These facts about steps are carried to runs by
`Thread.Invariant` and `Thread.run_ends`, and from there to all threads that schedulers and
evaluations ever have (`Thread.Reachable`). The main result is `thread_states_are_sound`.
-/

set_option autoImplicit false

namespace SheepScene

variable {W Body : Type}

namespace Thread

/-! ## Marks -/

/-- What a thread is doing, also while it runs. -/
inductive State where
  | running
  | yielded
  | waiting
  | finished
  | failed
  deriving DecidableEq

/-- What is marked beside a thread: its state and its error. -/
structure Mark where
  state : State
  error : Option ScriptError

namespace Mark

/-- A mark between two runs: the thread is not running, and it has an error if it has failed. -/
structure Settled (mark : Mark) : Prop where
  state : mark.state ≠ .running
  error : mark.error.isSome = true ↔ mark.state = .failed

/-- The mark of a status. -/
def ofStatus : ThreadStatus → Mark
  | .ready => ⟨.yielded, none⟩
  | .waiting => ⟨.waiting, none⟩
  | .finished => ⟨.finished, none⟩
  | .failed e => ⟨.failed, some e⟩

/-- A mark made from a status alone has nothing left to tell. -/
theorem settled_ofStatus (status : ThreadStatus) : (ofStatus status).Settled := by
  cases status <;> exact ⟨by simp [ofStatus], by simp [ofStatus]⟩

end Mark

section Marked

variable (host : Host W Body) (table : HostTable Body)

/-- Runs at most `budget` instructions with a mark beside the thread, which is changed where the run
comes to an end. -/
def runForMarked (budget executed : Nat) (t : Thread) (mark : Mark) :
    EStateM Fault W ((Thread × Mark) × Nat) :=
  match budget with
  | 0 => pure ((t, { mark with state := .yielded }), executed)
  | budget + 1 => do
    match ← step host table t with
    | (t, .ok .proceed) => runForMarked budget (executed + 1) t mark
    | (t, .ok .yield) => return ((t, { mark with state := .yielded }), executed + 1)
    | (t, .ok .wait) => return ((t, { mark with state := .waiting }), executed + 1)
    | (t, .ok .finish) => return ((t, { mark with state := .finished }), executed + 1)
    | (t, .error e) =>
      modify (host.report (t.failureMessage e))
      return ((t, { state := .failed, error := some e }), executed + 1)

/-- Lets a thread run with a mark beside it, which says that it is running while it does. The status
of the thread is not looked at. -/
def runMarked (budget : Nat) (t : Thread) (mark : Mark) :
    EStateM Fault W ((Thread × Mark) × Nat) := do
  match mark.state with
  | .finished | .failed => return ((t, mark), 0)
  | .waiting =>
    let t := { t with waits := pending (host.isComplete (← get)) t.waits }
    if t.waits.isEmpty then runForMarked host table budget 0 t { mark with state := .running }
    else return ((t, mark), 0)
  | .running | .yielded => runForMarked host table budget 0 t { mark with state := .running }

end Marked

section Agreement

variable {host : Host W Body} {table : HostTable Body}

/-- A run and the run with marks come to the same, up to the status, which agrees with the mark. -/
inductive Agree : EStateM.Result Fault W (Thread × Nat) →
    EStateM.Result Fault W ((Thread × Mark) × Nat) → Prop where
  | ok {t mark n w} (status) : mark = .ofStatus status →
      Agree (.ok ({ t with status }, n) w) (.ok ((t, mark), n) w)
  | fault (f w) : Agree (.error f w) (.error f w)

/-- The loop and the loop that keeps a mark come to the same end. -/
theorem runForMarked_agrees (budget executed : Nat) (t : Thread) (w : W) :
    Agree (runFor host table budget executed t w)
      (runForMarked host table budget executed t ⟨.running, none⟩ w) := by
  induction budget generalizing executed t w with
  | zero => exact .ok .ready rfl
  | succ budget ih =>
    unfold runFor runForMarked
    rcases hstep : step host table t w with ⟨⟨t₁, r⟩, w₁⟩ | ⟨f, w₁⟩
    · by_cases hr : r = .ok .proceed
      · subst hr
        rw [bind_of_ok (advance_proceed hstep), bind_of_ok hstep]
        exact ih _ t₁ w₁
      · rw [bind_of_ok (advance_stop hstep hr), bind_of_ok hstep]
        cases r with
        | error e => exact .ok (.failed e) rfl
        | ok flow =>
          cases flow with
          | proceed => exact absurd rfl hr
          | yield => exact .ok .ready rfl
          | wait => exact .ok .waiting rfl
          | finish => exact .ok .finished rfl
    · have hadv : advance host table t w = .error f w₁ := bind_of_error hstep
      rw [bind_of_error hadv, bind_of_error hstep]
      exact .fault f w₁

/-- A turn and the turn that keeps a mark come to the same end. -/
theorem runMarked_agrees (budget : Nat) (t : Thread) (w : W) :
    Agree (t.run host table budget w) (t.runMarked host table budget (.ofStatus t.status) w) := by
  rcases status_cases t with done | ready | waiting
  · have still : t.runMarked host table budget (.ofStatus t.status) w
        = .ok ((t, .ofStatus t.status), 0) w := by
      unfold isDone at done
      unfold runMarked
      cases hstatus : t.status with
      | finished | failed e => rfl
      | ready | waiting => simp [hstatus] at done
    rw [(run_done host table budget w done).1, still]
    exact .ok t.status rfl
  · rw [(run_ready ready).1, ready]
    exact runForMarked_agrees budget 0 t w
  · rw [waiting]
    by_cases hpending : pending (host.isComplete w) t.waits = []
    · have released : t.runMarked host table budget (.ofStatus .waiting) w
          = runForMarked host table budget 0 { t with waits := [] } ⟨.running, none⟩ w := by
        refine (bind_of_ok (t := w) rfl).trans ?_
        simp [hpending, Mark.ofStatus]
      rw [(run_released waiting hpending).1, released]
      exact runForMarked_agrees budget 0 _ w
    · have blocked : t.runMarked host table budget (.ofStatus .waiting) w
          = .ok (({ t with waits := pending (host.isComplete w) t.waits }, .ofStatus .waiting), 0)
            w := by
        refine (bind_of_ok (t := w) rfl).trans ?_
        have hempty : ¬ (pending (host.isComplete w) t.waits).isEmpty = true := by
          simpa using hpending
        rw [if_neg hempty]
        rfl
      rw [(run_blocked table budget waiting hpending).1, blocked, ← waiting]
      exact .ok (t := { t with waits := pending (host.isComplete w) t.waits }) t.status rfl

end Agreement

/-! ## Places -/

/-- Steps that stay where they are, or go to a place in the code or at its end. -/
structure Lands (t t' : Thread) : Prop where
  script : t'.script = t.script
  pc : t'.pc = t.pc ∨ t'.pc ≤ t.script.bytecode.size

/-- Landing in the code or at its end looks neither at the stack nor at the values of variables. -/
theorem lands_frame : Exec.Frame Lands fun _ => True where
  refl _ := ⟨rfl, .inl rfl⟩
  trans {a b c} h h' := by
    refine ⟨h'.script.trans h.script, ?_⟩
    rcases h'.pc with stays | lands
    · rw [stays]
      exact h.pc
    · rw [h.script] at lands
      exact .inr lands
  stack _ _ := ⟨rfl, .inl rfl⟩
  vars _ _ _ := ⟨rfl, .inl rfl⟩
  error _ := trivial

/-- A jump lands in the code or at its end, or fails. -/
theorem jump_lands (pc : Nat) (target : UInt32) :
    Exec.Respects Lands (fun _ => True) (jump pc target) fun _ => True := by
  refine ⟨fun t => ?_, fun _ => trivial, fun _ => trivial⟩
  unfold jump
  rw [Exec.run_bind, Exec.run_get]
  dsimp only
  by_cases outside : t.script.bytecode.size < target.toNat
  · rw [if_pos outside]
    exact ⟨rfl, .inl rfl⟩
  · rw [if_neg outside]
    exact ⟨rfl, .inr (Nat.not_lt.1 outside)⟩

/-- Whatever an instruction does, the thread lands in the code or at its end. -/
theorem execute_lands (isComplete : WaitHandle → Bool) (pc : Nat) (i : Instruction) (t : Thread) :
    Lands t ((execute isComplete pc i).run.run t).2 := by
  by_cases hbegin : i = .beginWait
  · subst hbegin
    exact ⟨rfl, .inl rfl⟩
  by_cases hend : i = .endWait
  · subst hend
    rw [execute_endWait]
    dsimp only
    by_cases hdepth : (if t.waitDepth = 0 then 0 else t.waitDepth - 1) = 0
    · rw [if_pos hdepth]
      exact ⟨rfl, .inl rfl⟩
    · rw [if_neg hdepth]
      exact ⟨rfl, .inl rfl⟩
  · have respects := Exec.respects_executeWith lands_frame isComplete pc hbegin hend
      fun target _ => jump_lands pc target
    exact respects.thread t

variable {host : Host W Body} {table : HostTable Body}

/-- A step that does not leave the thread as it is leads to a place in the code or at its end. -/
theorem step_place {t t' : Thread} {r : Except ScriptError Flow} {w w' : W}
    (h : step host table t w = .ok (t', r) w') : t' = t ∨ t'.pc ≤ t.script.bytecode.size := by
  rcases step_cases h with ⟨-, same, -⟩ | ⟨-, ⟨e, -, same, -⟩ |
    ⟨kind, index, next, hdec, hcall⟩ | ⟨i, next, hdec, -, hrun⟩⟩
  · exact .inl same
  · exact .inl same
  · have inside : next ≤ t.script.bytecode.size := (Instruction.decode_eq_ok_iff.1 hdec).2.1
    have stays := (callHost_onTrack hcall).1.pc
    rw [stays]
    exact .inr inside
  · have inside : next ≤ t.script.bytecode.size := (Instruction.decode_eq_ok_iff.1 hdec).2.1
    obtain ⟨-, rfl, -⟩ := runExec_ok hrun
    rcases (execute_lands (host.isComplete w) t.pc i { t with pc := next }).pc with stays | lands
    · rw [stays]
      exact .inr inside
    · exact .inr lands

/-- A thread that is as it was started behind the end of its code, but for its status. -/
def Unmoved (t : Thread) : Prop :=
  ∃ t₀, Thread.start t.id t.script t.function = .ok t₀ ∧ t.script.bytecode.size < t₀.pc ∧
    t = { t₀ with status := t.status, waits := t.waits }

/-- Having a value for each variable of the script, and standing in the code, or at its end, or
where the thread was started, is not broken by runs. -/
theorem invariant_placed (host : Host W Body) :
    Invariant host fun t => t.vars.size = t.script.vars.size ∧
      (t.pc ≤ t.script.bytecode.size ∨ t.Unmoved) where
  step {table t w t' r w'} placed h := by
    have sizes : t'.vars.size = t.vars.size := by
      have frame : StepFrame fun t t' => t'.vars.size = t.vars.size :=
        stepFrame_of (fun _ _ => rfl) (fun _ _ _ => by simp) (fun _ _ => rfl) (fun _ _ => rfl)
          (fun _ _ => rfl)
      exact frame.step h
    rw [sizes, step_script h]
    refine ⟨placed.1, ?_⟩
    rcases step_place h with rfl | inside
    · exact placed.2
    · exact .inl inside
  resume {t} status waits placed := by
    refine ⟨placed.1, ?_⟩
    rcases placed.2 with inside | ⟨t₀, hstart, behind, same⟩
    · exact .inl inside
    · have same' := congrArg (fun t => { t with status, waits }) same
      exact .inr ⟨t₀, hstart, behind, same'⟩

/-! ## Reachable threads -/

/-- The threads between two runs: those that are started, what runs make of them, in whatever world
and on whatever budget, and those told not to wait. A run that ends in a fault leaves no thread. -/
inductive Reachable (host : Host W Body) : Thread → Prop where
  | start {id script function t} : Thread.start id script function = .ok t → Reachable host t
  | run {t table budget w t' n w'} : Reachable host t →
      t.run host table budget w = .ok (t', n) w' → Reachable host t'
  | release {t} : Reachable host t → t.status = .waiting → Reachable host t.releaseWaits

/-- What is true of a thread between two runs. -/
structure Sound (t : Thread) : Prop where
  settled : (Mark.ofStatus t.status).Settled
  error : (Mark.ofStatus t.status).error = t.error?
  waits : t.status = .waiting → t.waits ≠ []
  vars : t.vars.size = t.script.vars.size
  stack : t.stack.size ≤ 1024
  pc : t.pc ≤ t.script.bytecode.size ∨ t.Unmoved

/-- A step after which the thread waits leaves something to wait for. -/
theorem step_waits {t t' : Thread} {w w' : W} (h : step host table t w = .ok (t', .ok .wait) w') :
    t'.waits ≠ [] := by
  rcases step_blocks h with hfinish | blocks
  · cases hfinish
  · cases blocks with
    | collect _ _ hflow => exact absurd rfl hflow
    | closeLast _ _ hflow =>
      rcases hflow with ⟨-, pending⟩ | ⟨hflow, -⟩
      · exact pending
      · exact absurd rfl hflow

/-- A turn that ends in waiting ends with a handle to wait for. -/
theorem run_waits {budget n : Nat} {t t' : Thread} {w w' : W}
    (h : t.run host table budget w = .ok (t', n) w') (waiting : t'.status = .waiting) :
    t'.waits ≠ [] := by
  cases run_ends h with
  | ended done =>
    unfold isDone at done
    rw [waiting] at done
    cases done
  | blocked _ pending => exact pending
  | usedUp ready =>
    rw [ready] at waiting
    cases waiting
  | @stopped m t₁ r w₁ _ _ _ hstep _ hsettled =>
    subst hsettled
    have outcome : r = .ok .wait := by
      cases r with
      | error e => cases waiting
      | ok flow => cases flow <;> first | rfl | cases waiting
    subst outcome
    have left : t₁.waits ≠ [] := step_waits hstep
    exact left

/-- In a thread that schedulers can reach there are as many variables as declared, and the program
counter is in the bytecode unless the thread has not moved. -/
theorem Reachable.placed {t : Thread} (h : t.Reachable host) :
    t.vars.size = t.script.vars.size ∧ (t.pc ≤ t.script.bytecode.size ∨ t.Unmoved) := by
  induction h with
  | @start id script function t hstart =>
    have whole := hstart
    unfold Thread.start at hstart
    cases hoffset : script.functionOffset? function with
    | none =>
      rw [hoffset] at hstart
      cases hstart
    | some offset =>
      rw [hoffset] at hstart
      cases hstart
      refine ⟨by simp, ?_⟩
      by_cases inside : offset.toNat ≤ script.bytecode.size
      · exact .inl inside
      · exact .inr ⟨_, whole, Nat.lt_of_not_le inside, rfl⟩
  | run _ hrun ih => exact (invariant_placed host).run ih hrun
  | release _ _ ih => exact (invariant_placed host).resume _ _ ih

/-- Every thread that schedulers can reach is sound. -/
theorem Reachable.sound {t : Thread} (h : t.Reachable host) : t.Sound where
  settled := Mark.settled_ofStatus t.status
  error := by
    unfold error?
    cases t.status <;> rfl
  waits waiting := by
    cases h with
    | start hstart =>
      rw [(free_start hstart).1.status] at waiting
      cases waiting
    | run _ hrun => exact run_waits hrun waiting
    | release _ _ => cases waiting
  vars := h.placed.1
  stack := t.stack.size_le
  pc := h.placed.2

end Thread

namespace Scheduler

variable {host : Host W Body} {s s' : Scheduler Body}

/-- A round of turns takes reachable threads to reachable threads. -/
theorem InTurn.reachable {table : HostTable Body} {budget : Nat} {l l' : List Thread} {w w' : W}
    (turn : InTurn host table budget l w l' w') (h : ∀ t ∈ l, t.Reachable host) :
    ∀ t ∈ l', t.Reachable host := by
  induction turn with
  | nil w => exact h
  | cons hrun _ ih =>
    have first := (h _ (List.mem_cons_self ..)).run hrun
    have others := ih fun t ht => h t (List.mem_cons_of_mem _ ht)
    intro t ht
    rcases List.mem_cons.1 ht with rfl | ht
    · exact first
    · exact others t ht

/-- A call of a scheduler takes reachable threads to reachable threads. -/
theorem Takes.reachable {call : Call} (takes : Takes host s call s')
    (h : ∀ t ∈ s.threads, t.Reachable host) : ∀ t ∈ s'.threads, t.Reachable host := by
  cases takes with
  | started hstart =>
    obtain ⟨t, t', n, hthread, hrun, -, -, rfl⟩ := of_start_ok hstart
    intro u hu
    rcases Array.mem_push.1 hu with hu | rfl
    · exact h u hu
    · exact (Thread.Reachable.start hthread).run hrun
  | refused hstart =>
    obtain ⟨-, -, rfl, -⟩ := of_start_error hstart
    exact h
  | updated hupdate =>
    have turn := (update_iff.1 hupdate).1
    have live : ∀ t ∈ s.live, t.Reachable host := fun t ht =>
      h t (Array.mem_def.2 (List.mem_filter.1 ht).1)
    exact fun t ht => turn.reachable live t (Array.mem_def.1 ht)
  | stopped id => exact fun t ht => h t (Array.mem_filter.1 ht).1

/-- The threads of schedulers are reachable. -/
theorem Course.reachable {calls : List Call} (run : Course host s calls s')
    (h : ∀ t ∈ s.threads, t.Reachable host) : ∀ t ∈ s'.threads, t.Reachable host := by
  induction run with
  | here => exact h
  | call _ takes ih => exact takes.reachable ih

/-- The threads of evaluations are reachable between two rounds. -/
theorem reachable_round {function : String} {remaining left : UInt32} {t t' : Thread}
    {executed : Nat} {w w' : W} (h : t.Reachable host)
    (hround : s.round host function remaining t w = .ok (executed, .again left t') w') :
    t'.Reachable host := by
  obtain ⟨⟨t₁, n⟩, w₁, hrun, hrest⟩ := bind_ok hround
  have ran := h.run hrun
  have answer : (n, s.roundResult function (remaining - .ofNat n) t₁)
      = (executed, .again left t') := by injection hrest
  have result := (Prod.mk.inj answer).2
  unfold roundResult at result
  cases hstatus : t₁.status with
  | finished | failed e =>
    simp only [hstatus] at result
    cases result
  | waiting =>
    simp only [hstatus] at result
    split at result
    · cases result
    · cases result
      exact ran.release hstatus
  | ready =>
    simp only [hstatus] at result
    split at result
    · cases result
    · cases result
      exact ran

end Scheduler

/-- The states of threads are sound. Every thread that a scheduler ever has, or that an evaluation
has between two rounds, is reachable, and reachable threads are sound, whatever their script is
like. A thread that is let run, which may end in a fault, runs as many instructions as the budget
has at most, and is not marked as running afterwards. It runs none and is as before if it has ended,
and none if it waits for something that is not complete, of which it only forgets what is. -/
theorem thread_states_are_sound (host : Host W Body) :
    (∀ table budget calls s,
      Scheduler.Course host { Scheduler.ofTable table with budget } calls s →
        ∀ t ∈ s.threads, t.Reachable host) ∧
    (∀ (s : Scheduler Body) function remaining t w executed left t' w', t.Reachable host →
      s.round host function remaining t w = .ok (executed, .again left t') w' →
        t'.Reachable host) ∧
    (∀ t : Thread, t.Reachable host → t.Sound) ∧
    ∀ (t : Thread) table budget w,
      (t.moments host table budget w).length ≤ budget ∧
      (∀ t' n w', t.run host table budget w = .ok (t', n) w' →
        n = (t.moments host table budget w).length ∧
          Thread.RunEnds host table budget t w t' n w') ∧
      Thread.Agree (t.run host table budget w)
        (t.runMarked host table budget (.ofStatus t.status) w) ∧
      (t.isDone = true → t.moments host table budget w = [] ∧
        t.run host table budget w = .ok (t, 0) w) ∧
      (t.status = .waiting → (∃ handle ∈ t.waits, host.isComplete w handle = false) →
        t.moments host table budget w = [] ∧
        t.run host table budget w
          = .ok ({ t with waits := t.waits.filter fun handle => !host.isComplete w handle }, 0)
            w) := by
  refine ⟨?_, ?_, fun t h => h.sound, fun t table budget w => ⟨?_, ?_, ?_, ?_, ?_⟩⟩
  · intro table budget calls s run
    exact run.reachable fun t ht => absurd ht (Array.not_mem_empty t)
  · intro s function remaining t w executed left t' w' h hround
    exact Scheduler.reachable_round h hround
  · exact Thread.length_moments_le budget t w
  · intro t' n w' hrun
    exact ⟨Thread.length_moments host table hrun, Thread.run_ends hrun⟩
  · exact Thread.runMarked_agrees budget t w
  · intro done
    have still := Thread.run_done host table budget w done
    exact ⟨still.2, still.1⟩
  · rintro waiting ⟨handle, hmem, incomplete⟩
    have blocked : Thread.pending (host.isComplete w) t.waits ≠ [] := by
      have left : handle ∈ Thread.pending (host.isComplete w) t.waits :=
        List.mem_filter.2 ⟨hmem, by simpa using incomplete⟩
      exact List.ne_nil_of_mem left
    have still := Thread.run_blocked table budget waiting blocked
    exact ⟨still.2, still.1⟩

/-- A thread that knocks at a shut door is reachable, so it has something to wait for; as long as
the door is shut it runs nothing. -/
theorem thread_states_are_sound_knocker :
    (knocker 1 12 .waiting [.named 1]).Reachable doorHost ∧
      (knocker 1 12 .waiting [.named 1]).Sound ∧
      (knocker 1 12 .waiting [.named 1]).run doorHost doorWatch.table 10 false
        = .ok (knocker 1 12 .waiting [.named 1], 0) false := by
  obtain ⟨courses, -, sound, runs⟩ := thread_states_are_sound doorHost
  have run : Scheduler.Course doorHost { Scheduler.ofTable doorWatch.table with budget := 10 }
      [.started 1] (porter #[knocker 1 12 .waiting [.named 1]] 2) :=
    .call .here (.started start_porter)
  have reachable := courses _ _ _ _ run (knocker 1 12 .waiting [.named 1]) (by simp [porter])
  obtain ⟨-, -, -, -, blocked⟩ := runs (knocker 1 12 .waiting [.named 1]) doorWatch.table 10 false
  have still := (blocked rfl ⟨.named 1, by simp [knocker], rfl⟩).2
  exact ⟨reachable, sound _ reachable, still⟩

end SheepScene
