import SheepScene.Proofs.Machine.RunTriples

/-!
# Wait blocks as barriers

A thread that runs an instruction outside every wait block has nothing left to wait for: all the
handles that host calls returned to it inside blocks are complete (`wait_blocks_are_barriers`).
This holds of every thread of a scheduler, whatever else is started, updated, stopped and
registered, and however the world changes in the meantime, as long as complete handles stay
complete and the count of open blocks does not wrap around.

The instructions that a thread has run are recorded as moments, one for each instruction counted
(`Thread.length_moments`). A `Watch` is a scheduler that remembers the moments of its threads;
forgetting them gives the scheduler back (`Watch.scheduler_start`, `Watch.scheduler_update`). The
invariant is `Accounted`: every handle returned inside a block is complete or still collected, and
outside blocks nothing is collected.
-/

set_option autoImplicit false

namespace SheepScene

variable {W Body : Type}

/-- A thread about to run its next instruction, with the world and the host functions at that
moment. -/
structure Moment (W Body : Type) where
  thread : Thread
  world : W
  table : HostTable Body

namespace Moment

/-- The handle that the host call at a moment returns to its thread inside a wait block, if the
instruction is such a call and the thread is in a block. -/
def handed? (host : Host W Body) (m : Moment W Body) : Option WaitHandle :=
  if m.thread.waitDepth = 0 then none
  else match Instruction.decode m.thread.script.bytecode m.thread.pc with
    | .ok (.callSysFunction _ index, next) =>
      match (Thread.callArguments m.table m.thread.pc index).run.run { m.thread with pc := next } with
      | (.ok (f, args), _) => match host.call f.body args m.world with
        | .ok (.ok reply) _ => reply.wait
        | _ => none
      | _ => none
    | _ => none

/-- Whether the instruction at a moment opens one block more than can be counted. -/
def Overflows (m : Moment W Body) : Prop :=
  m.thread.waitDepth = 0xFFFFFFFF ∧
    ∃ next, Instruction.decode m.thread.script.bytecode m.thread.pc = .ok (.beginWait, next)

end Moment

namespace Thread

variable (host : Host W Body) (table : HostTable Body)

/-- The moments of a run of at most `budget` instructions. -/
def momentsFor : Nat → Thread → W → List (Moment W Body)
  | 0, _, _ => []
  | budget + 1, t, w => ⟨t, w, table⟩ :: match advance host table t w with
    | .ok (t', true) w' => momentsFor budget t' w'
    | _ => []

/-- The moments of a thread that is let run: none if it has ended or still waits. -/
def moments (budget : Nat) (t : Thread) (w : W) : List (Moment W Body) :=
  match t.status with
  | .finished | .failed _ => []
  | .waiting =>
    let t := { t with waits := pending (host.isComplete w) t.waits }
    if t.waits.isEmpty then momentsFor host table budget t w else []
  | .ready => momentsFor host table budget t w

/-- There is one moment for each instruction that a run counts. -/
theorem length_momentsFor {budget executed n : Nat} {t t' : Thread} {w w' : W}
    (h : runFor host table budget executed t w = .ok (t', n) w') :
    n = executed + (momentsFor host table budget t w).length := by
  induction budget generalizing executed t w with
  | zero => cases h; rfl
  | succ budget ih =>
    obtain ⟨⟨t₁, going⟩, w₁, hadv, hrest⟩ := bind_ok h
    unfold momentsFor
    rw [hadv]
    cases going with
    | true =>
      have := ih hrest
      simp only [List.length_cons]
      omega
    | false => cases hrest; rfl

/-- The moments are those of all the instructions that a run counts. -/
theorem length_moments {budget n : Nat} {t t' : Thread} {w w' : W}
    (h : t.run host table budget w = .ok (t', n) w') :
    n = (t.moments host table budget w).length := by
  have counted : ∀ {t : Thread}, runFor host table budget 0 t w = .ok (t', n) w' →
      n = (momentsFor host table budget t w).length := fun hrun => by
    have := length_momentsFor host table hrun
    omega
  unfold run at h
  unfold moments
  cases hstatus : t.status with
  | finished | failed e =>
    simp only [hstatus] at h
    cases h
    rfl
  | ready =>
    simp only [hstatus] at h
    exact counted h
  | waiting =>
    simp only [hstatus] at h ⊢
    obtain ⟨_, _, hget, h⟩ := bind_ok h
    cases hget
    split at h
    · rename_i hempty
      rw [if_pos hempty]
      exact counted h
    · rename_i hempty
      rw [if_neg hempty]
      cases h
      rfl

end Thread

/-! ## Schedulers that remember -/

/-- A thread with the moments of all the instructions it has run. -/
structure Watched (W Body : Type) where
  thread : Thread
  past : List (Moment W Body)

/-- A scheduler with the moments of its threads. -/
structure Watch (W Body : Type) where
  table : HostTable Body
  threads : List (Watched W Body)
  budget : UInt32
  nextId : UInt32

namespace Watch

/-- The scheduler itself. -/
def scheduler (x : Watch W Body) : Scheduler Body :=
  { table := x.table, threads := (x.threads.map (·.thread)).toArray, budget := x.budget,
    nextId := x.nextId }

variable (host : Host W Body)

/-- Lets a thread run and adds the moments. -/
def runOne (table : HostTable Body) (budget : Nat) (y : Watched W Body) :
    EStateM Fault W (Watched W Body) := do
  let w ← get
  let (t, _) ← y.thread.run host table budget
  return { thread := t, past := y.past ++ y.thread.moments host table budget w }

/-- Runs threads one after the other. -/
def runAll (table : HostTable Body) (budget : Nat) :
    List (Watched W Body) → EStateM Fault W (List (Watched W Body))
  | [] => pure []
  | y :: rest => do
    let y ← runOne host table budget y
    return y :: (← runAll table budget rest)

/-- Starts a function as a new thread; nothing changes where there is no such function. -/
def start (x : Watch W Body) (script : Script) (function : String) :
    EStateM Fault W (Watch W Body) :=
  match Thread.start x.nextId script function with
  | .error _ => return x
  | .ok t => do
    let y ← runOne host x.table x.budget.toNat { thread := t, past := [] }
    return { x with threads := x.threads ++ [y], nextId := x.nextId + 1 }

/-- Forgets the threads that have ended, and runs the others. -/
def update (x : Watch W Body) : EStateM Fault W (Watch W Body) := do
  let threads ← runAll host x.table x.budget.toNat (x.threads.filter fun y => !y.thread.isDone)
  return { x with threads }

/-- Removes the thread of a number. -/
def stop (x : Watch W Body) (id : UInt32) : Watch W Body :=
  { x with threads := x.threads.filter fun y => y.thread.id != id }

/-- Without the moments, a thread runs as it does in a scheduler. -/
theorem thread_runOne (table : HostTable Body) (budget : Nat) (y : Watched W Body) :
    Watched.thread <$> runOne host table budget y
      = Prod.fst <$> y.thread.run host table budget := by
  have looked : ∀ x : EStateM Fault W Thread, (get >>= fun _ => x) = x := fun _ => rfl
  unfold runOne
  simp only [map_bind, bind_pure_comp, Functor.map_map]
  exact looked _

/-- Without the moments, threads run one after the other as they do in a scheduler. -/
theorem threads_runAll (table : HostTable Body) (budget : Nat) (l : List (Watched W Body)) :
    List.map Watched.thread <$> runAll host table budget l
      = Scheduler.runAll host table budget (l.map Watched.thread) := by
  induction l with
  | nil => rfl
  | cons y rest ih =>
    have one := thread_runOne host table budget y
    calc List.map Watched.thread <$> runAll host table budget (y :: rest)
        = (do
          let t ← Watched.thread <$> runOne host table budget y
          return t :: (← List.map Watched.thread <$> runAll host table budget rest)) := by
          rw [runAll]
          simp only [map_bind, bind_pure_comp, bind_map_left, Functor.map_map, List.map_cons]
      _ = Scheduler.runAll host table budget ((y :: rest).map Watched.thread) := by
          rw [one, ih]
          simp only [List.map_cons, Scheduler.runAll, bind_pure_comp, bind_map_left]

/-- Starting a thread is what it is without the moments. -/
theorem scheduler_start (x : Watch W Body) (script : Script) (function : String) :
    scheduler <$> x.start host script function
      = Prod.snd <$> x.scheduler.start host script function := by
  have one := fun t => thread_runOne host x.table x.budget.toNat { thread := t, past := [] }
  have looked : (x.scheduler).nextId = x.nextId := rfl
  unfold start Scheduler.start
  rw [looked]
  cases Thread.start x.nextId script function with
  | error e => rfl
  | ok t =>
    calc scheduler <$> (do
          let y ← runOne host x.table x.budget.toNat { thread := t, past := [] }
          return { x with threads := x.threads ++ [y], nextId := x.nextId + 1 })
        = (fun t => { x.scheduler with
            threads := x.scheduler.threads.push t, nextId := x.nextId + 1 })
          <$> Watched.thread <$> runOne host x.table x.budget.toNat
            { thread := t, past := [] } := by
          simp only [bind_pure_comp, Functor.map_map, scheduler, List.map_append, List.map_cons,
            List.map_nil, List.push_toArray]
      _ = _ := by
          rw [one]
          simp only [bind_pure_comp, Functor.map_map]
          rfl

/-- An update is what it is without the moments. -/
theorem scheduler_update (x : Watch W Body) :
    scheduler <$> x.update host = x.scheduler.update host := by
  have live : (x.scheduler.threads.filter fun t => !t.isDone).toList
      = (x.threads.filter fun y => !y.thread.isDone).map Watched.thread := by
    simp only [scheduler, List.filter_toArray, List.filter_map, Function.comp_def]
  unfold update Scheduler.update
  rw [live]
  have all := threads_runAll host x.table x.budget.toNat
    (x.threads.filter fun y => !y.thread.isDone)
  calc scheduler <$> (do
        let threads ← runAll host x.table x.budget.toNat
          (x.threads.filter fun y => !y.thread.isDone)
        return { x with threads })
      = (fun l => { x.scheduler with threads := l.toArray }) <$> List.map Watched.thread
        <$> runAll host x.table x.budget.toNat (x.threads.filter fun y => !y.thread.isDone) := by
        simp only [bind_pure_comp, Functor.map_map, scheduler]
    _ = _ := by
        rw [all]
        simp only [bind_pure_comp]
        rfl

/-- Stopping a thread is what it is without the moments. -/
theorem scheduler_stop (x : Watch W Body) (id : UInt32) :
    (x.stop id).scheduler = (x.scheduler.stop id).2 := by
  simp only [stop, Scheduler.stop, scheduler, List.filter_toArray, List.filter_map,
    Function.comp_def]

end Watch

/-! ## Histories -/

/-- The world only changes in ways that keep complete handles complete. -/
def Completes (host : Host W Body) (w w' : W) : Prop :=
  ∀ handle, host.isComplete w handle = true → host.isComplete w' handle = true

/-- What a host promises about handles: neither host functions nor error reports make a complete
handle incomplete again. -/
structure Host.KeepsCompletion (host : Host W Body) : Prop where
  call : ∀ {body args w answer w'}, host.call body args w = .ok answer w' → Completes host w w'
  report : ∀ message w, Completes host w (host.report message w)

/-- A host that keeps completion keeps it through each of its functions. -/
theorem Host.KeepsCompletion.keeps_call {host : Host W Body} (h : host.KeepsCompletion)
    (table : HostTable Body) (w : W) :
    ∀ f ∈ table.functions, ∀ args, Keeps (Completes host w) (host.call f.body args) :=
  fun _ _ _ _ hv _ _ hcall handle hdone => h.call hcall handle (hv handle hdone)

/-- A host that keeps completion keeps it when it reports a failure. -/
theorem Host.KeepsCompletion.keeps_report {host : Host W Body} (h : host.KeepsCompletion) (w : W) :
    ∀ message v, Completes host w v → Completes host w (host.report message v) :=
  fun message v hv handle hdone => h.report message v handle (hv handle hdone)

/-- How a scheduler and its world come about: threads are started, the scheduler is updated,
threads are stopped, and in between the world changes and host functions are registered. -/
inductive History (host : Host W Body) : Watch W Body → W → Prop where
  | empty (table budget nextId w) : History host { table, threads := [], budget, nextId } w
  | change {x w w'} : History host x w → Completes host w w' → History host x w'
  | start {x w script function x' w'} : History host x w →
      x.start host script function w = .ok x' w' → History host x' w'
  | update {x w x' w'} : History host x w → x.update host w = .ok x' w' → History host x' w'
  | stop {x w} (id) : History host x w → History host (x.stop id) w
  | configure {x w} (table budget) : History host x w → History host { x with table, budget } w

namespace Watch

/-- The threads that a scheduler can let run: those it has, and one that is about to be started. -/
inductive CanRun (x : Watch W Body) : Watched W Body → Prop where
  | known {y} : y ∈ x.threads → CanRun x y
  | fresh {script function t} : Thread.start x.nextId script function = .ok t →
      CanRun x { thread := t, past := [] }

/-- What holds of the threads of a scheduler in its world: it holds of threads just started, letting
a thread run keeps it, and the changes that a run makes to the world keep it for the other threads.
-/
structure Upholds (host : Host W Body) (Changes : W → W → Prop)
    (Q : W → Watched W Body → Prop) : Prop where
  refl : ∀ w, Changes w w
  trans : ∀ {w w' w''}, Changes w w' → Changes w' w'' → Changes w w''
  fresh : ∀ {id script function t} (w), Thread.start id script function = .ok t →
    Q w { thread := t, past := [] }
  run : ∀ {table budget y w y' w'}, Q w y → runOne host table budget y w = .ok y' w' →
    Q w' y' ∧ Changes w w'
  change : ∀ {y w w'}, Q w y → Changes w w' → Q w' y

namespace Upholds

variable {host : Host W Body} {Changes : W → W → Prop} {Q : W → Watched W Body → Prop}
  (upholds : Upholds host Changes Q)

include upholds in
/-- Letting threads run one after the other keeps what holds of each. -/
theorem runAll {table : HostTable Body} {budget : Nat} {l l' : List (Watched W Body)} {w w' : W}
    (h : ∀ y ∈ l, Q w y) (hrun : Watch.runAll host table budget l w = .ok l' w') :
    (∀ y ∈ l', Q w' y) ∧ Changes w w' := by
  induction l generalizing w l' with
  | nil =>
    cases hrun
    exact ⟨by simp, upholds.refl _⟩
  | cons y rest ih =>
    obtain ⟨y₁, w₁, hone, hrun⟩ := bind_ok hrun
    obtain ⟨rest₁, w₂, hall, hrun⟩ := bind_ok hrun
    cases hrun
    obtain ⟨hy, hw₁⟩ := upholds.run (h y (by simp)) hone
    obtain ⟨hrest, hw₂⟩ := ih (fun z hz => upholds.change (h z (by simp [hz])) hw₁) hall
    refine ⟨fun z hz => ?_, upholds.trans hw₁ hw₂⟩
    rcases List.mem_cons.1 hz with rfl | hz
    · exact upholds.change hy hw₂
    · exact hrest z hz

include upholds in
/-- Starting a thread keeps what holds of the others, and it holds of the new one. -/
theorem start {x x' : Watch W Body} {script : Script} {function : String} {w w' : W}
    (h : ∀ y ∈ x.threads, Q w y) (hstart : x.start host script function w = .ok x' w') :
    ∀ y ∈ x'.threads, Q w' y := by
  unfold Watch.start at hstart
  cases ht : Thread.start x.nextId script function with
  | error e =>
    rw [ht] at hstart
    cases hstart
    exact h
  | ok t =>
    rw [ht] at hstart
    obtain ⟨y₁, w₁, hone, hrun⟩ := bind_ok hstart
    cases hrun
    obtain ⟨hy, hw⟩ := upholds.run (upholds.fresh w ht) hone
    intro z hz
    rcases List.mem_append.1 hz with hz | hz
    · exact upholds.change (h z hz) hw
    · rw [List.mem_singleton] at hz
      subst hz
      exact hy

include upholds in
/-- An update keeps what holds of the threads. -/
theorem update {x x' : Watch W Body} {w w' : W} (h : ∀ y ∈ x.threads, Q w y)
    (hupdate : x.update host w = .ok x' w') : ∀ y ∈ x'.threads, Q w' y := by
  obtain ⟨threads, w₁, hall, hrun⟩ := bind_ok hupdate
  cases hrun
  exact (upholds.runAll (fun y hy => h y (List.mem_filter.1 hy).1) hall).1

end Upholds

end Watch

/-! ## The blocks after a step -/

namespace Thread

variable {host : Host W Body} {table : HostTable Body}

/-- What the instruction of a moment, after which the thread has not ended, does to the wait
blocks. -/
inductive BlockStep (host : Host W Body) (m : Moment W Body) :
    Thread → Flow → Prop where
  | collect {t' flow} : t'.waitDepth = m.thread.waitDepth →
      t'.waits = m.thread.waits ++ (m.handed? host).toList → flow ≠ .wait →
      BlockStep host m t' flow
  | openBlock {t' next} : m.handed? host = none →
      Instruction.decode m.thread.script.bytecode m.thread.pc = .ok (.beginWait, next) →
      t'.waitDepth = m.thread.waitDepth + 1 → t'.waits = m.thread.waits →
      BlockStep host m t' .proceed
  | closeInner {t'} : m.handed? host = none → t'.waitDepth ≠ 0 →
      t'.waits = m.thread.waits → BlockStep host m t' .proceed
  | closeLast {t' flow} : m.handed? host = none →
      t'.waits = pending (host.isComplete m.world) m.thread.waits →
      (flow = .wait ∧ t'.waits ≠ [] ∨ flow ≠ .wait ∧ t'.waits = []) → BlockStep host m t' flow

/-- A host call after which the thread goes on has found its function and got an answer, and the
thread has taken that. -/
theorem callHost_ok {t t' : Thread} {pc : Nat} {kind : Option Kind} {index : UInt32} {flow : Flow}
    {w w' : W} (h : callHost host table t pc kind index w = .ok (t', .ok flow) w') :
    ∃ f args t₁ reply, (callArguments table pc index).run.run t = (.ok (f, args), t₁) ∧
      host.call f.body args w = .ok (.ok reply) w' ∧ flow = .proceed ∧
      t' = ((takeReply pc kind reply).run.run t₁).2 := by
  rcases callHost_cases h with ⟨e, he, -⟩ |
    ⟨f, args, t₁, hfound, ⟨e, -, he, -⟩ | ⟨reply, hcall, htake⟩⟩
  · cases he
  · cases he
  · obtain ⟨-, htaken, hflow⟩ := runExec_ok htake
    have hflow := hflow flow rfl
    rw [Exec.run_bind] at htaken hflow
    refine ⟨f, args, t₁, reply, hfound, hcall, ?_⟩
    rcases htake : (takeReply pc kind reply).run.run t₁ with ⟨e | a, t₂⟩
    · rw [htake] at hflow
      cases hflow
    · rw [htake] at hflow htaken
      cases hflow
      exact ⟨rfl, htaken⟩

/-- A host call collects the handle that it returns inside a block. -/
theorem callHost_blocks {t t' : Thread} {next : Nat} {kind : Option Kind} {index : UInt32}
    {flow : Flow} {w w' : W}
    (hdec : Instruction.decode t.script.bytecode t.pc = .ok (.callSysFunction kind index, next))
    (h : callHost host table { t with pc := next } t.pc kind index w = .ok (t', .ok flow) w') :
    BlockStep host ⟨t, w, table⟩ t' flow := by
  obtain ⟨f, args, t₁, reply, hfound, hanswer, rfl, rfl⟩ := callHost_ok h
  have hargs : SameBlocks { t with pc := next } t₁ := by
    have := (Exec.respects_callArguments sameBlocks_frame table t.pc index).thread
      { t with pc := next }
    rwa [hfound] at this
  have htake := takeReply_blocks t.pc kind reply t₁
  have hhanded : (Moment.handed? host ⟨t, w, table⟩).toList = t₁.collected reply := by
    unfold Moment.handed? collected
    rw [hargs.waitDepth, hdec]
    simp only [hfound, hanswer]
    by_cases hdepth : t.waitDepth = 0
    · rw [if_pos hdepth, if_pos hdepth, Option.toList_none]
    · rw [if_neg hdepth, if_neg hdepth]
  refine .collect (htake.waitDepth.trans hargs.waitDepth) ?_ (by simp)
  rw [htake.waits, hhanded, hargs.waits]

/-- Closing a block is closing an inner one or the last one. -/
theorem endWait_blocks {t : Thread} {w : W} {pc : Nat} {flow : Flow} (next : Nat)
    (hnone : Moment.handed? host ⟨t, w, table⟩ = none)
    (h : ((execute (host.isComplete w) pc .endWait).run.run { t with pc := next }).1
      = .ok flow) :
    BlockStep host ⟨t, w, table⟩
      ((execute (host.isComplete w) pc .endWait).run.run { t with pc := next }).2 flow := by
  rw [execute_endWait] at h ⊢
  dsimp only at h ⊢
  by_cases hdepth : (if t.waitDepth = 0 then 0 else t.waitDepth - 1) = 0
  · rw [if_pos hdepth] at h ⊢
    refine .closeLast hnone rfl ?_
    by_cases hempty : (pending (host.isComplete w) t.waits).isEmpty = true
    · rw [if_pos hempty] at h
      cases h
      exact .inr ⟨by simp, List.isEmpty_iff.1 hempty⟩
    · rw [if_neg hempty] at h
      cases h
      exact .inl ⟨rfl, fun hwaits => hempty (List.isEmpty_iff.2 hwaits)⟩
  · rw [if_neg hdepth] at h ⊢
    cases h
    exact .closeInner hnone hdepth rfl

/-- Every step is of this kind, or the thread ends. -/
theorem step_blocks {t t' : Thread} {flow : Flow} {w w' : W}
    (h : step host table t w = .ok (t', .ok flow) w') :
    flow = .finish ∨ BlockStep host ⟨t, w, table⟩ t' flow := by
  rcases step_cases h with ⟨-, -, hend⟩ | ⟨-, ⟨e, -, -, he⟩ | ⟨kind, index, next, hdec, hcall⟩ |
    ⟨i, next, hdec, hother, hrun⟩⟩
  · cases hend
    exact .inl rfl
  · cases he
  · exact .inr (callHost_blocks hdec hcall)
  · have hnone : Moment.handed? host ⟨t, w, table⟩ = none := by
      unfold Moment.handed?
      rw [hdec]
      split
      · rfl
      · split
        · rename_i heq
          cases heq
          exact absurd rfl (hother _ _)
        · rfl
    obtain ⟨-, rfl, hflow⟩ := runExec_ok hrun
    have hflow := hflow flow rfl
    right
    by_cases hbegin : i = .beginWait
    · subst hbegin
      rw [execute_beginWait] at hflow ⊢
      cases hflow
      exact .openBlock hnone hdec rfl rfl
    by_cases hend : i = .endWait
    · subst hend
      exact endWait_blocks next hnone hflow
    have respects := Exec.respects_execute sameBlocks_frame (host.isComplete w) t.pc hbegin hend
      fun _ => sameBlocks_jumpFrame
    have same := respects.thread { t with pc := next }
    refine .collect same.waitDepth ?_ (respects.answer hflow)
    rw [same.waits, hnone, Option.toList_none, List.append_nil]

end Thread

/-! ## The barrier -/

section Barrier

variable {host : Host W Body} {table : HostTable Body}

/-- A later moment outside every block comes after what an earlier moment was handed is complete. -/
def Barrier (host : Host W Body) (earlier later : Moment W Body) : Prop :=
  later.thread.waitDepth = 0 → ∀ handle, earlier.handed? host = some handle →
    host.isComplete later.world handle = true

/-- Every handle that was handed to a thread inside a block is still collected or complete. -/
def Collects (host : Host W Body) (past : List (Moment W Body)) (t : Thread)
    (w : W) : Prop :=
  ∀ m ∈ past, ∀ handle, m.handed? host = some handle →
    handle ∈ t.waits ∨ host.isComplete w handle = true

/-- The invariant of a thread that is about to run an instruction. -/
structure Accounted (host : Host W Body) (past : List (Moment W Body))
    (t : Thread) (w : W) : Prop where
  barriers : past.Pairwise (Barrier host)
  collects : Collects host past t w
  outside : t.waitDepth = 0 → t.waits = []

/-- The invariant of a thread between two runs: what has ended needs no account, and what waits may
have left its blocks. -/
structure Suspended (host : Host W Body) (past : List (Moment W Body))
    (t : Thread) (w : W) : Prop where
  barriers : past.Pairwise (Barrier host)
  collects : t.isDone = false → Collects host past t w
  outside : t.status = .ready → t.waitDepth = 0 → t.waits = []

/-- The moments so far and the next one are barriers. -/
theorem Accounted.barriers_snoc {past : List (Moment W Body)} {t : Thread} {w : W}
    (h : Accounted host past t w) (table : HostTable Body) :
    (past ++ [(⟨t, w, table⟩ : Moment W Body)]).Pairwise (Barrier host) := by
  refine List.pairwise_append.2 ⟨h.barriers, List.pairwise_singleton _ _, ?_⟩
  intro m hm n hn hdepth handle hhanded
  rw [List.mem_singleton] at hn
  subst hn
  rcases h.collects m hm handle hhanded with hmem | hdone
  · rw [h.outside hdepth] at hmem
    exact absurd hmem List.not_mem_nil
  · exact hdone

/-- The account is kept where the thread collects more and more handles are complete. -/
theorem Collects.mono {past : List (Moment W Body)} {t t' : Thread} {w w' : W}
    (h : Collects host past t w) (hw : Completes host w w')
    (hwaits : ∀ handle ∈ t.waits, handle ∈ t'.waits ∨ host.isComplete w' handle = true) :
    Collects host past t' w' := by
  intro m hm handle hhanded
  rcases h m hm handle hhanded with hmem | hdone
  · exact hwaits handle hmem
  · exact .inr (hw handle hdone)

/-- The account after the instruction of a moment that does to the wait blocks what instructions
do: it covers the moment, and a thread that does not wait has nothing collected outside blocks. -/
theorem Accounted.blockStep {past : List (Moment W Body)} {t t' : Thread} {flow : Flow} {w w' : W}
    (h : Accounted host past t w) (hw : Completes host w w')
    (shallow : ¬ Moment.Overflows ⟨t, w, table⟩)
    (hstep : Thread.BlockStep host ⟨t, w, table⟩ t' flow) :
    Collects host (past ++ [⟨t, w, table⟩]) t' w' ∧
      (flow ≠ .wait → t'.waitDepth = 0 → t'.waits = []) := by
  have covers : ∀ hnew : ∀ handle, Moment.handed? host ⟨t, w, table⟩ = some handle →
        handle ∈ t'.waits, ∀ hold : Collects host past t' w',
      Collects host (past ++ [⟨t, w, table⟩]) t' w' := by
    intro hnew hold m hm handle hhanded
    rcases List.mem_append.1 hm with hm | hm
    · exact hold m hm handle hhanded
    · rw [List.mem_singleton] at hm
      subst hm
      exact .inl (hnew handle hhanded)
  have uncalled : ∀ hnone : Moment.handed? host ⟨t, w, table⟩ = none,
      ∀ hold : Collects host past t' w',
      Collects host (past ++ [⟨t, w, table⟩]) t' w' := by
    intro hnone hold
    refine covers (fun handle hhanded => ?_) hold
    rw [hnone] at hhanded
    cases hhanded
  cases hstep with
  | collect hdepth hwaits hflow =>
    refine ⟨covers ?_ (h.collects.mono hw ?_), fun _ hzero => ?_⟩
    · intro handle hhanded
      rw [hwaits, hhanded]
      simp
    · intro handle hmem
      rw [hwaits]
      exact .inl (List.mem_append_left _ hmem)
    · have hzero : t.waitDepth = 0 := hdepth ▸ hzero
      rw [hwaits, Moment.handed?, if_pos hzero, Option.toList_none, List.append_nil]
      exact h.outside hzero
  | openBlock hnone hdec hdepth hwaits =>
    refine ⟨uncalled hnone (h.collects.mono hw ?_), fun _ hzero => ?_⟩
    · intro handle hmem
      rw [hwaits]
      exact .inl hmem
    · -- the count of open blocks has not wrapped around
      refine absurd ⟨?_, _, hdec⟩ shallow
      have hsum : t.waitDepth + 1 = 0 := hdepth ▸ hzero
      change t.waitDepth = _
      grind
  | closeInner hnone hdepth hwaits =>
    refine ⟨uncalled hnone (h.collects.mono hw ?_), fun _ hzero => absurd hzero hdepth⟩
    intro handle hmem
    rw [hwaits]
    exact .inl hmem
  | closeLast hnone hwaits hflow =>
    refine ⟨uncalled hnone (h.collects.mono hw ?_), fun hwait _ => ?_⟩
    case refine_2 => exact (hflow.resolve_left fun hwaiting => hwait hwaiting.1).2
    intro handle hmem
    by_cases hdone : host.isComplete w handle = true
    · exact .inr (hw handle hdone)
    · rw [hwaits]
      exact .inl (List.mem_filter.2 ⟨hmem, by simpa using hdone⟩)

/-- Running an instruction keeps complete handles complete. -/
theorem completes_advance (completion : host.KeepsCompletion) {t : Thread} {r : Thread × Bool}
    {w w' : W} (hadv : Thread.advance host table t w = .ok r w') : Completes host w w' := by
  exact keeps_advance (completion.keeps_call table w) (completion.keeps_report w) t w
    (fun _ hdone => hdone) r w' hadv

/-- One instruction: the account goes on to the next one, or to the end of the run. -/
theorem Accounted.advance (completion : host.KeepsCompletion) {past : List (Moment W Body)}
    {t t' : Thread} {going : Bool} {w w' : W} (h : Accounted host past t w)
    (shallow : ¬ Moment.Overflows ⟨t, w, table⟩)
    (hadv : Thread.advance host table t w = .ok (t', going) w') :
    (going = true → Accounted host (past ++ [⟨t, w, table⟩]) t' w') ∧
      (going = false → Suspended host (past ++ [⟨t, w, table⟩]) t' w') := by
  have hw := completes_advance completion hadv
  have hbar := h.barriers_snoc table
  unfold Thread.advance at hadv
  obtain ⟨⟨t₁, e | flow⟩, w₁, hstep, hadv⟩ := bind_ok hadv
  · cases hadv
    refine ⟨by simp, fun _ => ⟨hbar, ?_, ?_⟩⟩
    · intro hlive
      cases hlive
    · intro hready
      cases hready
  · have blocks := Thread.step_blocks hstep
    cases flow with
    | proceed =>
      cases hadv
      obtain ⟨hcollects, hout⟩ := h.blockStep hw shallow (blocks.resolve_left (by simp))
      exact ⟨fun _ => ⟨hbar, hcollects, hout (by simp)⟩, by simp⟩
    | yield =>
      cases hadv
      obtain ⟨hcollects, hout⟩ := h.blockStep hw shallow (blocks.resolve_left (by simp))
      exact ⟨by simp, fun _ => ⟨hbar, fun _ => hcollects, fun _ => hout (by simp)⟩⟩
    | wait =>
      cases hadv
      obtain ⟨hcollects, -⟩ := h.blockStep hw shallow (blocks.resolve_left (by simp))
      refine ⟨by simp, fun _ => ⟨hbar, fun _ => hcollects, ?_⟩⟩
      intro hready
      cases hready
    | finish =>
      cases hadv
      refine ⟨by simp, fun _ => ⟨hbar, ?_, ?_⟩⟩
      · intro hlive
        cases hlive
      · intro hready
        cases hready

/-- A run from an accounted thread: all its moments are barriers, also where it ends in a fault, and
where it comes to an end the thread is accounted for. -/
theorem Accounted.runFor (completion : host.KeepsCompletion) {budget : Nat} (executed : Nat)
    {past : List (Moment W Body)} {t : Thread} {w : W} (h : Accounted host past t w)
    (shallow : ∀ m ∈ Thread.momentsFor host table budget t w, ¬ m.Overflows) :
    (past ++ Thread.momentsFor host table budget t w).Pairwise (Barrier host) ∧
      ∀ r w', Thread.runFor host table budget executed t w = .ok r w' →
        Suspended host (past ++ Thread.momentsFor host table budget t w) r.1 w' := by
  induction budget generalizing executed past t w with
  | zero =>
    unfold Thread.momentsFor
    rw [List.append_nil]
    refine ⟨h.barriers, fun r w' hrun => ?_⟩
    cases hrun
    exact ⟨h.barriers, fun _ => h.collects, fun _ => h.outside⟩
  | succ budget ih =>
    unfold Thread.momentsFor at shallow ⊢
    have hbar := h.barriers_snoc table
    have hfirst : ¬ Moment.Overflows ⟨t, w, table⟩ := shallow _ (List.mem_cons_self ..)
    rcases hadv : Thread.advance host table t w with ⟨⟨t₁, going⟩, w₁⟩ | ⟨e, w₁⟩
    · obtain ⟨hgoing, hended⟩ := h.advance completion hfirst hadv
      cases going with
      | true =>
        have hshallow : ∀ m ∈ Thread.momentsFor host table budget t₁ w₁, ¬ m.Overflows := by
          intro m hm
          refine shallow m (List.mem_cons_of_mem _ ?_)
          rw [hadv]
          exact hm
        obtain ⟨hpairs, hsuspended⟩ := ih (executed + 1) (hgoing rfl) hshallow
        rw [List.append_assoc] at hpairs hsuspended
        refine ⟨hpairs, fun r w' hrun => ?_⟩
        obtain ⟨r₁, w₂, hok, hrun⟩ := bind_ok hrun
        cases hadv.symm.trans hok
        exact hsuspended r w' hrun
      | false =>
        refine ⟨hbar, fun r w' hrun => ?_⟩
        obtain ⟨r₁, w₂, hok, hrun⟩ := bind_ok hrun
        cases hadv.symm.trans hok
        cases hrun
        exact hended rfl
    · refine ⟨hbar, fun r w' hrun => ?_⟩
      obtain ⟨r₁, w₂, hok, -⟩ := bind_ok hrun
      cases hadv.symm.trans hok

/-- Letting a thread run. -/
theorem Suspended.run (completion : host.KeepsCompletion) {budget : Nat}
    {past : List (Moment W Body)} {t : Thread} {w : W} (h : Suspended host past t w)
    (shallow : ∀ m ∈ t.moments host table budget w, ¬ m.Overflows) :
    (past ++ t.moments host table budget w).Pairwise (Barrier host) ∧
      ∀ r w', t.run host table budget w = .ok r w' →
        Suspended host (past ++ t.moments host table budget w) r.1 w' := by
  have still : ∀ {waits n}, Suspended host past { t with waits } w →
      (past ++ []).Pairwise (Barrier host) ∧
        ∀ r w', (pure ({ t with waits }, n) : EStateM Fault W (Thread × Nat)) w = .ok r w' →
          Suspended host (past ++ []) r.1 w' := by
    intro waits n hstill
    rw [List.append_nil]
    refine ⟨h.barriers, fun r w' hrun => ?_⟩
    cases hrun
    exact hstill
  unfold Thread.moments at shallow ⊢
  unfold Thread.run
  cases hstatus : t.status with
  | finished | failed e => exact still h
  | ready =>
    simp only [hstatus] at shallow
    have hlive : t.isDone = false := by simp [Thread.isDone, hstatus]
    exact Accounted.runFor completion 0 ⟨h.barriers, h.collects hlive, h.outside hstatus⟩ shallow
  | waiting =>
    have same : ∀ waits, ({ t with status := .waiting, waits } : Thread) = { t with waits } := by
      intro waits
      rw [← hstatus]
    simp only [hstatus] at shallow ⊢
    simp only [same] at shallow ⊢
    have hlive : t.isDone = false := by simp [Thread.isDone, hstatus]
    have hcollects : Collects host past
        { t with waits := Thread.pending (host.isComplete w) t.waits } w := by
      refine (h.collects hlive).mono (fun _ hdone => hdone) fun handle hmem => ?_
      by_cases hdone : host.isComplete w handle = true
      · exact .inr hdone
      · exact .inl (List.mem_filter.2 ⟨hmem, by simpa using hdone⟩)
    by_cases hempty : (Thread.pending (host.isComplete w) t.waits).isEmpty = true
    · rw [if_pos hempty] at shallow ⊢
      have hrun := Accounted.runFor completion 0
        ⟨h.barriers, hcollects, fun _ => List.isEmpty_iff.1 hempty⟩ shallow
      refine ⟨hrun.1, fun r w' hok => hrun.2 r w' ?_⟩
      change (if (Thread.pending (host.isComplete w) t.waits).isEmpty = true
        then (_ : EStateM Fault W (Thread × Nat)) else _) w = _ at hok
      rwa [if_pos hempty] at hok
    · rw [if_neg hempty]
      have hrun := still (n := 0) ⟨h.barriers, fun _ => hcollects, fun hready => ?_⟩
      · refine ⟨hrun.1, fun r w' hok => hrun.2 r w' ?_⟩
        change (if (Thread.pending (host.isComplete w) t.waits).isEmpty = true
          then (_ : EStateM Fault W (Thread × Nat)) else _) w = _ at hok
        rwa [if_neg hempty] at hok
      · rw [show t.status = .ready from hready] at hstatus
        cases hstatus

/-- The world may change between two runs. -/
theorem Suspended.change {past : List (Moment W Body)} {t : Thread} {w w' : W}
    (h : Suspended host past t w) (hw : Completes host w w') :
    Suspended host past t w' :=
  ⟨h.barriers, fun hlive => (h.collects hlive).mono hw fun _ hmem => .inl hmem, h.outside⟩

/-- A thread just started has nothing to account for. -/
theorem suspended_start {id : UInt32} {script : Script} {function : String} {t : Thread} {w : W}
    (h : Thread.start id script function = .ok t) : Suspended host [] t w := by
  unfold Thread.start at h
  split at h
  · cases h
  · cases h
    exact ⟨.nil, fun _ m hm => absurd hm List.not_mem_nil, fun _ _ => rfl⟩

/-- The invariant of a thread with its moments, as long as the count of blocks does not wrap. -/
def Watched.Good (host : Host W Body) (w : W) (y : Watched W Body) : Prop :=
  (∀ m ∈ y.past, ¬ m.Overflows) → Suspended host y.past y.thread w

/-- Letting a thread run keeps its invariant, and complete handles stay complete. -/
theorem Watch.good_runOne (completion : host.KeepsCompletion) {budget : Nat}
    {y y' : Watched W Body} {w w' : W} (h : y.Good host w)
    (hrun : Watch.runOne host table budget y w = .ok y' w') :
    y'.Good host w' ∧ Completes host w w' := by
  obtain ⟨_, _, hget, hrun⟩ := bind_ok hrun
  cases hget
  obtain ⟨r, w₁, hok, hrun⟩ := bind_ok hrun
  cases hrun
  refine ⟨fun shallow => ?_, ?_⟩
  · have hpast := fun m hm => shallow m (List.mem_append_left _ hm)
    have hnew := fun m hm => shallow m (List.mem_append_right _ hm)
    exact ((h hpast).run completion hnew).2 r w' hok
  · exact keeps_threadRun (completion.keeps_call table w) (completion.keeps_report w) budget
      y.thread w (fun _ hdone => hdone) r w' hok

/-- More complete handles do not break the invariant. -/
theorem Watched.Good.change {y : Watched W Body} {w w' : W} (h : y.Good host w)
    (hw : Completes host w w') : y.Good host w' :=
  fun shallow => (h shallow).change hw

/-- Runs uphold the invariant, as far as complete handles stay complete. -/
theorem Watch.upholds_good (completion : host.KeepsCompletion) :
    Watch.Upholds host (Completes host) (Watched.Good host) where
  refl _ _ hdone := hdone
  trans hw hw' handle hdone := hw' handle (hw handle hdone)
  fresh _ hstart _ := suspended_start hstart
  run := Watch.good_runOne completion
  change := Watched.Good.change

/-- Every thread of a history is accounted for. -/
theorem History.good (completion : host.KeepsCompletion) {x : Watch W Body} {w : W}
    (h : History host x w) : ∀ y ∈ x.threads, y.Good host w := by
  have upholds := Watch.upholds_good completion
  induction h with
  | empty => simp
  | change _ hw ih => exact fun y hy => (ih y hy).change hw
  | start _ hstart ih => exact upholds.start ih hstart
  | update _ hupdate ih => exact upholds.update ih hupdate
  | stop id _ ih => exact fun y hy => ih y ((List.mem_filter.1 hy).1)
  | configure table budget _ ih => exact ih

end Barrier

/-- Wait blocks are barriers: when a thread runs an instruction outside every wait block, all the
handles are complete that earlier host calls returned to it inside blocks. The moments are those of
its runs so far and those of the run that it would make now, which may end in a fault. -/
theorem wait_blocks_are_barriers {host : Host W Body} (completion : host.KeepsCompletion)
    {x : Watch W Body} {w : W} (h : History host x w) {y : Watched W Body} (hy : x.CanRun y)
    (budget : Nat)
    (shallow : ∀ m ∈ y.past ++ y.thread.moments host x.table budget w, ¬ m.Overflows) :
    (y.past ++ y.thread.moments host x.table budget w).Pairwise fun earlier later =>
      later.thread.waitDepth = 0 → ∀ handle, earlier.handed? host = some handle →
        host.isComplete later.world handle = true := by
  have good : y.Good host w := by
    cases hy with
    | known hmem => exact h.good completion y hmem
    | fresh hstart => exact fun _ => suspended_start hstart
  have hpast := good fun m hm => shallow m (List.mem_append_left _ hm)
  exact (hpast.run completion fun m hm => shallow m (List.mem_append_right _ hm)).1

/-- A host whose world is a door, open or shut: every call asks to wait until it is open. -/
def doorHost : Host Bool Unit where
  call _ _ := pure (.ok (.waiting (.named 1)))
  isComplete isOpen _ := isOpen
  report _ isOpen := isOpen

/-- A script that waits for the door in a block: `BeginWait`, a call, `EndWait`, `ReturnV`. -/
def knock : Script :=
  { Script.blank "knock" with
    functions := #[⟨"Main", 0⟩]
    imports := #[⟨"Knock", 0⟩]
    bytecode := #[0x09, 0x13, 0, 0, 0, 0, 0x02, 0, 0, 0, 0, 0x0A, 0x0B] }

/-- A scheduler that lets scripts knock. -/
def doorWatch : Watch Bool Unit where
  table := ⟨#[⟨"Knock", [], none, ()⟩]⟩
  threads := []
  budget := 10
  nextId := 1

/-- The thread waits in front of a shut door; once the door is open it runs its last instruction
outside the block. -/
theorem wait_blocks_are_barriers_door :
    ∃ x y, History doorHost x true ∧ x.CanRun y ∧
      (∀ m ∈ y.past ++ y.thread.moments doorHost x.table 10 true, ¬ m.Overflows) ∧
      y.past.map (fun m => (m.thread.waitDepth, m.handed? doorHost, m.world))
        = [(0, none, false), (1, none, false), (1, some (.named 1), false), (1, none, false),
          (0, none, true)] ∧
      (y.past ++ y.thread.moments doorHost x.table 10 true).Pairwise fun earlier later =>
        later.thread.waitDepth = 0 → ∀ handle, earlier.handed? doorHost = some handle →
          doorHost.isComplete later.world handle = true := by
  have completion : doorHost.KeepsCompletion :=
    ⟨fun hcall _ hdone => by cases hcall; exact hdone, fun _ _ _ hdone => hdone⟩
  obtain ⟨x, x', y, hstart, hupdate, hthreads, hpast, hshallow⟩ :
      ∃ x x' y, doorWatch.start doorHost knock "Main" false = .ok x false ∧
        x.update doorHost true = .ok x' true ∧ x'.threads = [y] ∧
        y.past.map (fun m => (m.thread.waitDepth, m.handed? doorHost, m.world))
          = [(0, none, false), (1, none, false), (1, some (.named 1), false), (1, none, false),
            (0, none, true)] ∧
        (y.past ++ y.thread.moments doorHost x'.table 10 true).all
          (fun m => m.thread.waitDepth != 0xFFFFFFFF) = true :=
    ⟨_, _, _, rfl, rfl, rfl, rfl, rfl⟩
  have h : History doorHost x' true :=
    .update (.change (.start (.empty ..) hstart) (fun _ _ => rfl)) hupdate
  have hy : x'.CanRun y := .known (by simp [hthreads])
  have shallow : ∀ m ∈ y.past ++ y.thread.moments doorHost x'.table 10 true, ¬ m.Overflows := by
    intro m hm hover
    have := List.all_eq_true.1 hshallow m hm
    rw [hover.1] at this
    cases this
  exact ⟨x', y, h, hy, shallow, hpast, wait_blocks_are_barriers completion h hy 10 shallow⟩

end SheepScene
