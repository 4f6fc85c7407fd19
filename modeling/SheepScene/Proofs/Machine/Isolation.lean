import SheepScene.Proofs.Machine.Slices
import SheepScene.Scene.Perform

/-!
# Isolation of threads

As long as no host function is called, a thread sees nothing of the world but which handles are
complete, and changes nothing of it: only its failure is reported. So an instruction does the same
in every world with the same handles (`Thread.step_alone`), hence so does a slice of a run
(`Thread.runs_alone`), and an update runs every thread as if it were alone, in whatever order
(`Scheduler.runAll_of_alone`). The main result is `threads_are_isolated`.
-/

set_option autoImplicit false

namespace SheepScene

variable {W Body : Type}

/-- Whether the instruction at a moment is a host call. -/
def Moment.isHostCall (m : Moment W Body) : Bool :=
  match Instruction.decode m.thread.script.bytecode m.thread.pc with
  | .ok (.callSysFunction .., _) => true
  | _ => false

/-- Reporting an error does not touch the handles. -/
def Host.ReportsAside (host : Host W Body) : Prop :=
  ∀ message w, host.isComplete (host.report message w) = host.isComplete w

/-- Reports of a scene do not touch its handles. -/
theorem SceneM.host_reportsAside {K B : Type} [Scalar K] [Behavior K B]
    (respond : Impulse K → SceneM K B Unit) : (SceneM.host respond).ReportsAside :=
  fun _ _ => rfl

namespace Thread

variable {host : Host W Body} {table : HostTable Body}

/-- What reports do not touch is as before when a failure has been noted. -/
theorem view_noted {α : Type} {view : W → α}
    (hview : ∀ message v, view (host.report message v) = view v) (t : Thread) (w : W) :
    view (t.noted host w) = view w := by
  unfold noted
  cases t.error? with
  | none => rfl
  | some e => exact hview _ _

/-! ## One thread -/

/-- Steps that do not call the host run alike in all worlds. -/
theorem runExec_alone {α : Type} {t : Thread} {steps : Exec α} {w w' : W}
    {r : Thread × Except ScriptError α} (h : runExec t steps w = .ok r w') (v : W) :
    runExec t steps v = .ok r v := by
  unfold runExec at h ⊢
  rcases hrun : steps.run.run t with ⟨(e | f) | a, t'⟩
  · rw [hrun] at h
    cases h
    rfl
  · rw [hrun] at h
    cases h
  · rw [hrun] at h
    cases h
    rfl

/-- An instruction that is no host call leaves the world as it is, and does the same in every world
with the same handles. -/
theorem step_alone {t t' : Thread} {r : Except ScriptError Flow} {w w' : W}
    (uncalled : Moment.isHostCall ⟨t, w, table⟩ = false)
    (h : step host table t w = .ok (t', r) w') :
    w' = w ∧ ∀ v, host.isComplete v = host.isComplete w →
      step host table t v = .ok (t', r) v := by
  unfold step at h ⊢
  by_cases hend : t.script.bytecode.size ≤ t.pc
  · rw [if_pos hend] at h ⊢
    cases h
    exact ⟨rfl, fun v _ => rfl⟩
  rw [if_neg hend] at h ⊢
  cases hdec : Instruction.decode t.script.bytecode t.pc with
  | error e =>
    simp only [hdec] at h ⊢
    cases h
    exact ⟨rfl, fun v _ => rfl⟩
  | ok found =>
    obtain ⟨i, next⟩ := found
    simp only [hdec] at h ⊢
    have other : ∀ kind index, i ≠ .callSysFunction kind index := by
      rintro kind index rfl
      unfold Moment.isHostCall at uncalled
      rw [hdec] at uncalled
      cases uncalled
    have alone : runExec { t with pc := next } (execute (host.isComplete w) t.pc i) w
          = .ok (t', r) w' →
        w' = w ∧ ∀ v, host.isComplete v = host.isComplete w →
          runExec { t with pc := next } (execute (host.isComplete v) t.pc i) v = .ok (t', r) v := by
      intro hrun
      refine ⟨(runExec_ok hrun).1, fun v same => ?_⟩
      rw [same]
      exact runExec_alone hrun v
    cases i
    case callSysFunction kind index => exact absurd rfl (other kind index)
    all_goals exact alone h

/-- An instruction that calls no host function runs alike in all worlds with the same complete
handles, and only notes its failure. -/
theorem advance_alone {t t' : Thread} {going : Bool} {w w' : W}
    (uncalled : Moment.isHostCall ⟨t, w, table⟩ = false) (live : t.isDone = false)
    (h : advance host table t w = .ok (t', going) w') :
    w' = t'.noted host w ∧ (going = true → t'.isDone = false) ∧
      ∀ v, host.isComplete v = host.isComplete w →
        advance host table t v = .ok (t', going) (t'.noted host v) := by
  rcases advance_cases h with ⟨rfl, hstep⟩ | ⟨rfl, t₁, r, w₁, hstep, hr, rfl, hnoted⟩
  · have live' : t'.isDone = false := by
      unfold isDone at live ⊢
      rw [step_status hstep]
      exact live
    obtain ⟨rfl, alone⟩ := step_alone uncalled hstep
    refine ⟨(noted_of_live host live' _).symm, fun _ => live', fun v same => ?_⟩
    rw [noted_of_live host live']
    exact advance_proceed (alone v same)
  · obtain ⟨rfl, alone⟩ := step_alone uncalled hstep
    refine ⟨hnoted, by simp, fun v same => ?_⟩
    exact advance_stop (alone v same) hr

/-- A run of instructions that call no host function goes alike in all worlds with the same complete
handles, and only notes its failure. -/
theorem runFor_alone {budget executed n : Nat} {t t' : Thread} {w w' : W}
    (uncalled : ∀ m ∈ momentsFor host table budget t w, m.isHostCall = false)
    (live : t.isDone = false)
    (h : runFor host table budget executed t w = .ok (t', n) w') :
    w' = t'.noted host w ∧ ∀ v, host.isComplete v = host.isComplete w →
      runFor host table budget executed t v = .ok (t', n) (t'.noted host v) := by
  induction budget generalizing executed t with
  | zero =>
    cases h
    exact ⟨rfl, fun v _ => rfl⟩
  | succ budget ih =>
    obtain ⟨⟨t₁, going⟩, w₁, hadv, hrest⟩ := bind_ok h
    unfold momentsFor at uncalled
    rw [hadv] at uncalled
    have first : Moment.isHostCall ⟨t, w, table⟩ = false := uncalled _ (List.mem_cons_self ..)
    obtain ⟨rfl, hlive, alone⟩ := advance_alone first live hadv
    cases going with
    | true =>
      have live₁ : t₁.isDone = false := hlive rfl
      have quiet : ∀ v, t₁.noted host v = v := noted_of_live host live₁
      rw [quiet] at hrest uncalled
      obtain ⟨hworld, hrest'⟩ := ih (fun m hm => uncalled m (List.mem_cons_of_mem _ hm)) live₁ hrest
      refine ⟨hworld, fun v same => ?_⟩
      have hadv' := alone v same
      rw [quiet] at hadv'
      exact (bind_of_ok hadv').trans (hrest' v same)
    | false =>
      cases hrest
      exact ⟨rfl, fun v same => bind_of_ok (alone v same)⟩

/-- What becomes of a thread that is let run in a world. -/
def after (host : Host W Body) (table : HostTable Body) (budget : Nat) (w : W) (t : Thread) :
    Thread :=
  match t.run host table budget w with
  | .ok (t', _) _ => t'
  | .error _ _ => t

/-- Whether the run of a thread is the same in all worlds that have the handles of `w`, of which it
changes none: its failure is reported at most. -/
def RunsAlone (host : Host W Body) (table : HostTable Body) (budget : Nat) (w : W) (t : Thread) :
    Prop :=
  ∃ n, ∀ v, host.isComplete v = host.isComplete w →
    t.run host table budget v
      = .ok (t.after host table budget w, n) ((t.after host table budget w).noted host v)

/-- A thread that makes no host call runs alone. -/
theorem runs_alone {budget n : Nat} {t t' : Thread} {w w' : W}
    (uncalled : ∀ m ∈ t.moments host table budget w, m.isHostCall = false) (live : t.isDone = false)
    (h : t.run host table budget w = .ok (t', n) w') :
    t.after host table budget w = t' ∧ w' = t'.noted host w ∧ t.RunsAlone host table budget w := by
  have becomes : t.after host table budget w = t' := by
    unfold after
    rw [h]
  have settled : w' = t'.noted host w ∧ ∀ v, host.isComplete v = host.isComplete w →
      t.run host table budget v = .ok (t', n) (t'.noted host v) := by
    rcases status_cases t with done | ready | waiting
    · rw [live] at done
      cases done
    · rw [(run_ready ready).1] at h
      rw [(run_ready ready).2] at uncalled
      obtain ⟨hworld, alone⟩ := runFor_alone uncalled live h
      exact ⟨hworld, fun v same => (run_ready ready).1.trans (alone v same)⟩
    · by_cases hpending : pending (host.isComplete w) t.waits = []
      · rw [(run_released waiting hpending).1] at h
        rw [(run_released waiting hpending).2] at uncalled
        obtain ⟨hworld, alone⟩ := runFor_alone uncalled live h
        refine ⟨hworld, fun v same => ?_⟩
        have hpending' : pending (host.isComplete v) t.waits = [] := by rw [same, hpending]
        exact (run_released waiting hpending').1.trans (alone v same)
      · have blocked := (run_blocked table budget waiting hpending).1
        rw [h] at blocked
        cases blocked
        have live' : ({ t with waits := pending (host.isComplete w) t.waits } : Thread).isDone
            = false := live
        refine ⟨(noted_of_live host live' _).symm, fun v same => ?_⟩
        have hpending' : pending (host.isComplete v) t.waits ≠ [] := by rwa [same]
        rw [(run_blocked table budget waiting hpending').1, noted_of_live host live', same]
  refine ⟨becomes, settled.1, n, fun v same => ?_⟩
  rw [becomes]
  exact settled.2 v same

end Thread

namespace Scheduler

/-! ## All threads -/

/-- The moments of threads that run one after the other. -/
def momentsAll (host : Host W Body) (table : HostTable Body) (budget : Nat) :
    List Thread → W → List (Moment W Body)
  | [], _ => []
  | t :: rest, w => t.moments host table budget w ++ match t.run host table budget w with
    | .ok _ w' => momentsAll host table budget rest w'
    | .error _ _ => []

/-- The moments of all the instructions of an update. -/
def updateMoments (host : Host W Body) (s : Scheduler Body) (w : W) : List (Moment W Body) :=
  momentsAll host s.table s.budget.toNat (s.threads.filter fun t => !t.isDone).toList w

/-- The world once the failures of threads are reported, in their order. -/
def notedAll (host : Host W Body) (threads : List Thread) (w : W) : W :=
  threads.foldl (fun w t => t.noted host w) w

variable {host : Host W Body} {table : HostTable Body} {budget : Nat}

/-- Of the world that reports do not touch nothing changes. -/
theorem view_notedAll {α : Type} {view : W → α}
    (hview : ∀ message v, view (host.report message v) = view v) (threads : List Thread) (w : W) :
    view (notedAll host threads w) = view w := by
  induction threads generalizing w with
  | nil => rfl
  | cons t rest ih => exact (ih _).trans (Thread.view_noted hview t w)

/-- Where threads run one after the other and make no host call, each runs alone. -/
theorem alone_of_runAll (aside : host.ReportsAside) {l l' : List Thread} {v v' w : W}
    (same : host.isComplete v = host.isComplete w) (live : ∀ t ∈ l, t.isDone = false)
    (uncalled : ∀ m ∈ momentsAll host table budget l v, m.isHostCall = false)
    (h : runAll host table budget l v = .ok l' v') :
    ∀ t ∈ l, t.RunsAlone host table budget w := by
  induction l generalizing v v' l' with
  | nil => simp
  | cons t rest ih =>
    obtain ⟨⟨t', n⟩, v₁, hrun, hrest⟩ := bind_ok h
    obtain ⟨rest', v₂, hall, -⟩ := bind_ok hrest
    unfold momentsAll at uncalled
    rw [hrun] at uncalled
    have first := fun m hm => uncalled m (List.mem_append_left _ hm)
    have others := fun m hm => uncalled m (List.mem_append_right _ hm)
    obtain ⟨becomes, hnoted, n, alone⟩ := Thread.runs_alone first (live t (by simp)) hrun
    have same₁ : host.isComplete v₁ = host.isComplete w := by
      rw [hnoted, Thread.view_noted aside, same]
    intro z hz
    rcases List.mem_cons.1 hz with rfl | hz
    · have becomes' : z.after host table budget w = t' := by
        unfold Thread.after
        rw [alone w same.symm, becomes]
      refine ⟨n, fun u hu => ?_⟩
      rw [becomes', ← becomes]
      exact alone u (hu.trans same.symm)
    · exact ih same₁ (fun z hz => live z (by simp [hz])) others hall z hz

/-- Threads each of which runs alone run one after the other, in whatever order, as if each were
alone. -/
theorem runAll_of_alone (aside : host.ReportsAside) {l : List Thread} {v w : W}
    (same : host.isComplete v = host.isComplete w)
    (alone : ∀ t ∈ l, t.RunsAlone host table budget w) :
    runAll host table budget l v
      = .ok (l.map (Thread.after host table budget w))
        (notedAll host (l.map (Thread.after host table budget w)) v) := by
  induction l generalizing v with
  | nil => rfl
  | cons t rest ih =>
    obtain ⟨n, hrun⟩ := alone t (by simp)
    have first := hrun v same
    have same₁ := (Thread.view_noted aside (t.after host table budget w) v).trans same
    have others := ih same₁ fun z hz => alone z (by simp [hz])
    exact (bind_of_ok first).trans (bind_of_ok others)

/-- What becomes of those of some threads that have not ended, when each is let run alone. -/
def eachAlone (host : Host W Body) (s : Scheduler Body) (w : W) (threads : Array Thread) :
    Array Thread :=
  (threads.filter fun t => !t.isDone).map (Thread.after host s.table s.budget.toNat w)

/-- An update of threads each of which runs alone. -/
theorem update_of_alone (aside : host.ReportsAside) {s : Scheduler Body} {w : W}
    {threads : Array Thread} (alone : ∀ t ∈ threads, t.isDone = false →
      t.RunsAlone host s.table s.budget.toNat w) :
    update host { s with threads } w
      = .ok { s with threads := s.eachAlone host w threads }
        (notedAll host (s.eachAlone host w threads).toList w) := by
  have each : ∀ t ∈ (threads.filter fun t => !t.isDone).toList,
      t.RunsAlone host s.table s.budget.toNat w := by
    intro t ht
    obtain ⟨hmem, hlive⟩ := Array.mem_filter.1 (Array.mem_def.2 ht)
    exact alone t hmem (by simpa using hlive)
  have run := runAll_of_alone aside rfl each
  rw [← Array.toList_map] at run
  exact bind_of_ok run

end Scheduler

/-- Threads are isolated from each other. When an update makes no host call and does not end in a
fault, nothing of the world changes but that failures are reported, in particular no handle does.
Each thread that had not ended becomes what it becomes when it is the only one. This is so for every
selection of the threads in every order: to leave a thread out, because it fails or for any other
reason, or to run the threads in another order, makes no difference to the others. -/
theorem threads_are_isolated {host : Host W Body} (aside : host.ReportsAside)
    {s s' : Scheduler Body} {w w' : W} (h : s.update host w = .ok s' w')
    (uncalled : ∀ m ∈ s.updateMoments host w, m.isHostCall = false) :
    w' = Scheduler.notedAll host s'.threads.toList w ∧
    (∀ handle, host.isComplete w' handle = host.isComplete w handle) ∧
    (∀ {α : Type} (view : W → α), (∀ message v, view (host.report message v) = view v) →
      view w' = view w) ∧
    s' = { s with threads := s.eachAlone host w s.threads } ∧
    (∀ t ∈ s.threads, t.isDone = false →
      Scheduler.update host { s with threads := #[t] } w
        = .ok { s with threads := #[t.after host s.table s.budget.toNat w] }
          ((t.after host s.table s.budget.toNat w).noted host w)) ∧
    ∀ threads : Array Thread, (∀ t ∈ threads, t ∈ s.threads) →
      Scheduler.update host { s with threads } w
        = .ok { s with threads := s.eachAlone host w threads }
          (Scheduler.notedAll host (s.eachAlone host w threads).toList w) := by
  have alone : ∀ t ∈ s.threads, t.isDone = false → t.RunsAlone host s.table s.budget.toNat w := by
    obtain ⟨threads, w₁, hall, -⟩ := bind_ok h
    intro t ht hlive
    have live : ∀ t ∈ (s.threads.filter fun t => !t.isDone).toList, t.isDone = false := by
      intro t ht
      simpa using (Array.mem_filter.1 (Array.mem_def.2 ht)).2
    have hmem : t ∈ (s.threads.filter fun t => !t.isDone).toList :=
      Array.mem_def.1 (Array.mem_filter.2 ⟨ht, by simp [hlive]⟩)
    exact Scheduler.alone_of_runAll aside rfl live uncalled hall t hmem
  have selected : ∀ threads : Array Thread, (∀ t ∈ threads, t ∈ s.threads) →
      Scheduler.update host { s with threads } w
        = .ok { s with threads := s.eachAlone host w threads }
          (Scheduler.notedAll host (s.eachAlone host w threads).toList w) := by
    intro threads hsub
    exact Scheduler.update_of_alone aside fun t ht hlive => alone t (hsub t ht) hlive
  have whole := (selected s.threads fun t ht => ht).symm.trans h
  rw [EStateM.Result.ok.injEq] at whole
  obtain ⟨rfl, rfl⟩ := whole
  refine ⟨rfl, ?_, ?_, rfl, ?_, selected⟩
  · intro handle
    rw [Scheduler.view_notedAll aside]
  · intro α view hview
    exact Scheduler.view_notedAll hview _ _
  · intro t ht hlive
    have one := selected #[t] (by simpa using ht)
    simpa [hlive, Scheduler.eachAlone, Scheduler.notedAll] using one

/-- A host whose world is a log. -/
def logHost : Host (List String) Unit where
  call _ _ := pure (.ok .void)
  isComplete _ _ := false
  report message log := log ++ [message]

/-- A script whose function `Open` opens a wait block and yields, and whose function `Break` is no
code. -/
def opener : Script :=
  { Script.blank "opener" with
    functions := #[⟨"Open", 0⟩, ⟨"Break", 2⟩]
    bytecode := #[0x09, 0x01, 0xFF] }

/-- A thread at some place of that script. -/
def openerAt (id : UInt32) (function : String) (pc : Nat) (waitDepth : UInt32) : Thread where
  id
  script := opener
  function
  pc
  stack := .empty
  vars := #[]
  status := .ready
  waitDepth
  waits := []

/-- Two threads that open a block and between them one that fails. -/
def opening : Scheduler Unit where
  table := .empty
  threads := #[openerAt 1 "Open" 0 0, openerAt 2 "Break" 2 0, openerAt 3 "Open" 0 0]
  budget := 10
  nextId := 4

/-- The threads that open a block do so as well without the one that fails and the other way
round. -/
theorem threads_are_isolated_opener :
    ∃ s' w', logHost.ReportsAside ∧ opening.update logHost [] = .ok s' w' ∧
      (∀ m ∈ opening.updateMoments logHost [], m.isHostCall = false) ∧
      s'.threads.toList.map Thread.isDone = [false, true, false] ∧ w'.length = 1 ∧
      Scheduler.update logHost
          { opening with threads := #[openerAt 3 "Open" 0 0, openerAt 1 "Open" 0 0] } []
        = .ok { opening with threads := #[openerAt 3 "Open" 2 1, openerAt 1 "Open" 2 1] } [] := by
  have aside : logHost.ReportsAside := fun _ _ => rfl
  obtain ⟨s', w', h, hdone, hlog⟩ : ∃ s' w', opening.update logHost [] = .ok s' w' ∧
      s'.threads.toList.map Thread.isDone = [false, true, false] ∧ w'.length = 1 :=
    ⟨_, _, rfl, rfl, rfl⟩
  have checked : (opening.updateMoments logHost []).all (fun m => !m.isHostCall) = true := rfl
  have uncalled : ∀ m ∈ opening.updateMoments logHost [], m.isHostCall = false := by
    intro m hm
    simpa using List.all_eq_true.1 checked m hm
  obtain ⟨-, -, -, -, -, selected⟩ := threads_are_isolated aside h uncalled
  have others := selected #[openerAt 3 "Open" 0 0, openerAt 1 "Open" 0 0] (by simp [opening])
  have opens : ∀ id, (openerAt id "Open" 0 0).after logHost opening.table opening.budget.toNat []
      = openerAt id "Open" 2 1 := fun id => rfl
  have left : opening.eachAlone logHost [] #[openerAt 3 "Open" 0 0, openerAt 1 "Open" 0 0]
      = #[openerAt 3 "Open" 2 1, openerAt 1 "Open" 2 1] := by
    have live : ∀ id, (openerAt id "Open" 0 0).isDone = false := fun id => rfl
    simp [Scheduler.eachAlone, live, opens]
  rw [left] at others
  exact ⟨s', w', aside, h, uncalled, hdone, hlog, others⟩

end SheepScene
