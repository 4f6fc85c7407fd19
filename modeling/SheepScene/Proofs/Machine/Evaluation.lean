import SheepScene.Proofs.Machine.Renumbering

/-!
# Evaluation and updates

The same function can be started and driven by updates, in slices that a budget or `Yield` ends, or
it can be evaluated at once. When no host function answers with something to wait for, a thread that
has not ended can always go on (`Thread.Free`), so both are one run (`Thread.Runs`): the slices put
together (`Thread.runs_runFor`, `Watch.Drives`), and the run at once, which is the same as far as
its budget goes (`Thread.Runs.runToEnd`). The main result is `evaluation_agrees_with_updates`.
-/

set_option autoImplicit false

namespace SheepScene

variable {W Body : Type}

/-- No function of a table answers with something to wait for. -/
def Host.Waitless (host : Host W Body) (table : HostTable Body) : Prop :=
  ∀ f ∈ table.functions, ∀ args w reply w',
    host.call f.body args w = .ok (.ok reply) w' → reply.wait = none

namespace Thread

variable {host : Host W Body} {table : HostTable Body}

/-! ## Threads that never wait -/

/-- A thread that can go on at once. -/
structure Free (t : Thread) : Prop where
  status : t.status = .ready
  waits : t.waits = []

/-- A thread that is free to run has not ended. -/
theorem Free.not_isDone {t : Thread} (h : t.Free) : t.isDone = false := by
  simp [isDone, h.status]

/-- Without handles from the host nothing is handed to a thread. -/
theorem handed?_eq_none (waitless : host.Waitless table) (t : Thread) (w : W) :
    Moment.handed? host ⟨t, w, table⟩ = none := by
  unfold Moment.handed?
  split
  · rfl
  split
  · dsimp only
    split
    · rename_i f args t' hargs
      split
      · rename_i reply w' hcall
        exact waitless f (mem_of_callArguments hargs) args w reply w' hcall
      · rfl
    · rfl
  · rfl

/-- A step that hands nothing to a thread with nothing to wait for leaves it so. -/
theorem BlockStep.free {m : Moment W Body} {t' : Thread} {flow : Flow}
    (h : BlockStep host m t' flow) (hwaits : m.thread.waits = []) (hnone : m.handed? host = none) :
    flow ≠ .wait ∧ t'.waits = [] := by
  cases h with
  | collect _ hcollected hflow => exact ⟨hflow, by rw [hcollected, hwaits, hnone]; rfl⟩
  | openBlock _ _ _ hkept => exact ⟨by simp, hkept.trans hwaits⟩
  | closeInner _ _ hkept => exact ⟨by simp, hkept.trans hwaits⟩
  | closeLast _ hpending hflow =>
    have hempty : t'.waits = [] := by
      rw [hpending, hwaits]
      rfl
    exact hflow.resolve_left fun hwaiting => hwaiting.2 hempty

/-- After an instruction a thread has ended or can go on at once. -/
theorem Free.advance (waitless : host.Waitless table) {t t' : Thread} {going : Bool} {w w' : W}
    (h : t.Free) (hadv : advance host table t w = .ok (t', going) w') :
    (going = true → t'.Free) ∧ (t'.isDone = true ∨ t'.Free) := by
  obtain ⟨⟨t₁, r⟩, w₁, hstep, hrest⟩ := bind_ok hadv
  have hstatus : t₁.status = .ready := (step_status hstep).trans h.status
  cases r with
  | error e =>
    cases hrest
    exact ⟨by simp, .inl rfl⟩
  | ok flow =>
    rcases step_blocks hstep with rfl | blocks
    · cases hrest
      exact ⟨by simp, .inl rfl⟩
    · obtain ⟨hflow, hwaits⟩ := blocks.free h.waits (handed?_eq_none waitless t w)
      cases flow with
      | proceed =>
        cases hrest
        exact ⟨fun _ => ⟨hstatus, hwaits⟩, .inr ⟨hstatus, hwaits⟩⟩
      | yield =>
        cases hrest
        exact ⟨by simp, .inr ⟨rfl, hwaits⟩⟩
      | wait => exact absurd rfl hflow
      | finish =>
        cases hrest
        exact ⟨by simp, .inl rfl⟩

/-! ## Runs of a thread -/

/-- A thread that can go on runs some instructions; the moments are theirs. -/
inductive Runs (host : Host W Body) (table : HostTable Body) :
    Thread → W → List (Moment W Body) → Thread → W → Prop where
  | refl (t w) : Runs host table t w [] t w
  | step {t w t₁ going w₁ rest t' w'} : t.Free → advance host table t w = .ok (t₁, going) w₁ →
      Runs host table t₁ w₁ rest t' w' → Runs host table t w (⟨t, w, table⟩ :: rest) t' w'

/-- A run that goes on where another one stops. -/
theorem Runs.trans {t t₁ t₂ : Thread} {w w₁ w₂ : W} {ms ms' : List (Moment W Body)}
    (h : Runs host table t w ms t₁ w₁) (h' : Runs host table t₁ w₁ ms' t₂ w₂) :
    Runs host table t w (ms ++ ms') t₂ w₂ := by
  induction h with
  | refl => exact h'
  | step free hadv _ ih => exact .step free hadv (ih h')

/-- A run within a budget, and what becomes of the thread. -/
theorem runs_runFor (waitless : host.Waitless table) {budget executed n : Nat} {t t' : Thread}
    {w w' : W} (free : t.Free) (h : runFor host table budget executed t w = .ok (t', n) w') :
    Runs host table t w (momentsFor host table budget t w) t' w' ∧
      (t'.isDone = true ∨ t'.Free) := by
  induction budget generalizing executed t w with
  | zero =>
    cases h
    have same : ({ t with status := .ready } : Thread) = t := by rw [← free.status]
    rw [same]
    exact ⟨.refl _ _, .inr free⟩
  | succ budget ih =>
    obtain ⟨⟨t₁, going⟩, w₁, hadv, hrest⟩ := bind_ok h
    obtain ⟨hgoing, hended⟩ := free.advance waitless hadv
    unfold momentsFor
    rw [hadv]
    cases going with
    | true =>
      obtain ⟨runs, ended⟩ := ih (hgoing rfl) hrest
      exact ⟨.step free hadv runs, ended⟩
    | false =>
      cases hrest
      exact ⟨.step free hadv (.refl _ _), hended⟩

/-- How a thread has ended, told of the thread under the number zero: its value or its error, and
what remains of the world. -/
inductive Concluded (host : Host W Body) (t : Thread) :
    W → Except ScriptError Value → W → Prop where
  | finished {w} : t.status = .finished → Concluded host t w (.ok t.result) w
  | failed {e w} : t.status = .failed e →
      Concluded host t (host.report (t.failureMessage e) w) (.error e)
        (host.report ((t.renumber 0).failureMessage e) w)

section ToEnd

variable {budget : Nat} {t t' : Thread} {going : Bool} {w w' : W}
  (h : advance host table t w = .ok (t', going) w')

include h in
/-- Where an instruction finishes the thread, its result is the result of the evaluation. -/
theorem runToEnd_finished (hstatus : t'.status = .finished) :
    runToEnd host table (budget + 1) t w = .ok (some (.ok t'.result)) w' := by
  rw [runToEnd, bind_of_ok h]
  simp only [hstatus]
  rfl

include h in
/-- Where an instruction fails, its error is the result of the evaluation. -/
theorem runToEnd_failed {e : ScriptError} (hstatus : t'.status = .failed e) :
    runToEnd host table (budget + 1) t w = .ok (some (.error e)) w' := by
  rw [runToEnd, bind_of_ok h]
  simp only [hstatus]
  rfl

include h in
/-- Where an instruction leaves the thread ready, the evaluation goes on with it. -/
theorem runToEnd_ready (hstatus : t'.status = .ready) :
    runToEnd host table (budget + 1) t w = runToEnd host table budget t' w' := by
  rw [runToEnd, bind_of_ok h]
  simp only [hstatus]

include h in
/-- An instruction that ends the thread is the last moment. -/
theorem momentsToEnd_done (done : t'.isDone = true) :
    momentsToEnd host table (budget + 1) t w = [⟨t, w, table⟩] := by
  unfold isDone at done
  rw [momentsToEnd, h]
  cases hstatus : t'.status with
  | finished | failed e => simp only [hstatus]
  | ready | waiting => simp [hstatus] at done

include h in
/-- An instruction that leaves the thread ready is a moment, and others follow. -/
theorem momentsToEnd_ready (hstatus : t'.status = .ready) :
    momentsToEnd host table (budget + 1) t w
      = ⟨t, w, table⟩ :: momentsToEnd host table budget t' w' := by
  rw [momentsToEnd, h]
  simp only [hstatus]

end ToEnd

/-- From a thread that has ended no run goes on. -/
theorem Runs.eq_of_isDone {t t' : Thread} {w w' : W} {ms : List (Moment W Body)}
    (h : Runs host table t w ms t' w') (done : t.isDone = true) : ms = [] ∧ t' = t ∧ w' = w := by
  cases h with
  | refl => exact ⟨rfl, rfl, rfl⟩
  | step free =>
    rw [free.not_isDone] at done
    cases done

/-- A run to the end is the same when it is made at once, on a budget that suffices; on another one
it is cut off. -/
theorem Runs.runToEnd (waitless : host.Waitless table) {t t' : Thread} {w w' : W}
    {ms : List (Moment W Body)} (h : Runs host table t w ms t' w') (free : t.Free)
    (done : t'.isDone = true) (budget : Nat) :
    momentsToEnd host table budget (t.renumber 0) w = (ms.take budget).map (Moment.renumber 0) ∧
    (ms.length ≤ budget → ∃ outcome v, t'.Concluded host w' outcome v ∧
      runToEnd host table budget (t.renumber 0) w = .ok (some outcome) v) ∧
    (budget < ms.length → ∃ v, runToEnd host table budget (t.renumber 0) w = .ok none v) := by
  induction h generalizing budget with
  | refl t w =>
    rw [free.not_isDone] at done
    cases done
  | @step t w t₁ going w₁ rest t' w' _ hadv hrest ih =>
    cases budget with
    | zero => exact ⟨rfl, by simp, fun _ => ⟨w, rfl⟩⟩
    | succ budget =>
      obtain ⟨v, hadv', retold⟩ := advance_renumber host table 0 free.status hadv
      obtain ⟨-, hdone | hfree⟩ := free.advance waitless hadv
      · obtain ⟨rfl, rfl, rfl⟩ := hrest.eq_of_isDone hdone
        have hdone' : (t'.renumber 0).isDone = true := hdone
        refine ⟨?_, fun _ => ?_, fun hlt => by simp at hlt⟩
        · rw [momentsToEnd_done hadv' hdone']
          simp [Moment.renumber]
        · cases retold with
          | report hstatus => exact ⟨_, _, .failed hstatus, runToEnd_failed hadv' hstatus⟩
          | same hlive =>
            have hstatus : t'.status = .finished := by
              unfold isDone at hdone
              cases hstatus : t'.status with
              | finished => rfl
              | failed e => exact absurd hstatus (hlive e)
              | ready | waiting => simp [hstatus] at hdone
            have ran : Thread.runToEnd host table (budget + 1) (t.renumber 0) w
                = .ok (some (.ok (t'.renumber 0).result)) _ := runToEnd_finished hadv' hstatus
            exact ⟨_, _, .finished hstatus, ran⟩
      · cases retold with
        | report hstatus =>
          rw [hfree.status] at hstatus
          cases hstatus
        | same =>
          obtain ⟨moments, whole, cut⟩ := ih hfree done budget
          have hstatus : (t₁.renumber 0).status = .ready := hfree.status
          rw [momentsToEnd_ready hadv' hstatus, runToEnd_ready hadv' hstatus, moments]
          refine ⟨rfl, fun hle => whole ?_, fun hlt => cut ?_⟩
          · simpa using hle
          · simpa using hlt

/-- A thread that has been started can go on; under another number it is the same thread. -/
theorem free_start {id : UInt32} {script : Script} {function : String} {t : Thread}
    (h : Thread.start id script function = .ok t) :
    t.Free ∧ Thread.start 0 script function = .ok (t.renumber 0) := by
  unfold Thread.start at h ⊢
  cases hoffset : script.functionOffset? function with
  | none =>
    rw [hoffset] at h
    cases h
  | some offset =>
    rw [hoffset] at h
    cases h
    exact ⟨⟨rfl, rfl⟩, rfl⟩

end Thread

/-! ## Schedulers -/

/-- Updates alone, one after the other. -/
inductive Updates (host : Host W Body) (x : Watch W Body) (w : W) : Watch W Body → W → Prop where
  | none : Updates host x w x w
  | more {x' w' x'' w''} : Updates host x w x' w' → x'.update host w' = .ok x'' w'' →
      Updates host x w x'' w''

/-- A function is started in a scheduler in which no other thread goes on, and is driven by updates
alone until its thread has ended. -/
inductive DrivenToEnd (host : Host W Body) (table : HostTable Body) (script : Script)
    (function : String) (w : W) : Watched W Body → W → Prop where
  | intro {x x₁ x' : Watch W Body} {w₁ w' : W} {y : Watched W Body} : x.table = table →
      (∀ z ∈ x.threads, z.thread.isDone = true) →
      (script.functionOffset? function).isSome = true →
      x.start host script function w = .ok x₁ w₁ → Updates host x₁ w₁ x' w' →
      x'.threads.getLast? = some y → y.thread.isDone = true →
      DrivenToEnd host table script function w y w'

namespace Watch

variable {host : Host W Body}

/-- The thread `t` has run from the world `w` to `w'`, and has ended or can go on at once. -/
structure Ran (host : Host W Body) (table : HostTable Body) (t : Thread) (w : W)
    (y : Watched W Body) (w' : W) : Prop where
  runs : Thread.Runs host table t w y.past y.thread w'
  settled : y.thread.isDone = true ∨ y.thread.Free

/-- Letting a thread run that can go on. -/
theorem Ran.runOne {table : HostTable Body} (waitless : host.Waitless table) {budget : Nat}
    {t : Thread} {y y' : Watched W Body} {w w' w'' : W} (h : Ran host table t w y w')
    (live : y.thread.Free) (hrun : runOne host table budget y w' = .ok y' w'') :
    Ran host table t w y' w'' := by
  obtain ⟨_, _, hget, hrun⟩ := bind_ok hrun
  cases hget
  obtain ⟨⟨t', n⟩, w₁, hok, hrun⟩ := bind_ok hrun
  cases hrun
  unfold Thread.run at hok
  unfold Thread.moments
  simp only [live.status] at hok ⊢
  obtain ⟨runs, settled⟩ := Thread.runs_runFor waitless live hok
  exact ⟨h.runs.trans runs, settled⟩

/-- What a scheduler holds while it drives a thread: threads that have ended and the thread itself,
or nothing any more. -/
inductive Drives (host : Host W Body) (t : Thread) (w : W) (x : Watch W Body) (w' : W) : Prop where
  | last {others y} : x.threads = others ++ [y] → (∀ z ∈ others, z.thread.isDone = true) →
      Ran host x.table t w y w' → Drives host t w x w'
  | empty : x.threads = [] → Drives host t w x w'

/-- An update drives the thread on. -/
theorem Drives.update {t : Thread} {x x' : Watch W Body} {w w' w'' : W}
    (waitless : host.Waitless x.table) (h : Drives host t w x w')
    (hupdate : x.update host w' = .ok x' w'') :
    x'.table = x.table ∧ Drives host t w x' w'' := by
  obtain ⟨threads, w₁, hall, hrun⟩ := bind_ok hupdate
  cases hrun
  refine ⟨rfl, ?_⟩
  cases h with
  | empty hempty =>
    rw [hempty] at hall
    cases hall
    exact .empty rfl
  | @last others y hthreads hothers ran =>
    have ended : others.filter (fun y => !y.thread.isDone) = [] := by
      rw [List.filter_eq_nil_iff]
      intro z hz
      simp [hothers z hz]
    rw [hthreads, List.filter_append, ended, List.nil_append] at hall
    cases hdone : y.thread.isDone with
    | true =>
      simp only [List.filter, hdone, Bool.not_true] at hall
      cases hall
      exact .empty rfl
    | false =>
      simp only [List.filter, hdone, Bool.not_false] at hall
      obtain ⟨y₁, w₂, hone, hrest⟩ := bind_ok hall
      cases hrest
      have live : y.thread.Free := ran.settled.resolve_left (by simp [hdone])
      exact .last (List.nil_append [y₁]).symm (by simp) (ran.runOne waitless live hone)

/-- Updates drive the thread on. -/
theorem Drives.updates {t : Thread} {x x' : Watch W Body} {w w₁ w' : W}
    (waitless : host.Waitless x.table) (h : Drives host t w x w₁)
    (updates : Updates host x w₁ x' w') : x'.table = x.table ∧ Drives host t w x' w' := by
  induction updates with
  | none => exact ⟨rfl, h⟩
  | more _ hupdate ih =>
    obtain ⟨htable, drives⟩ := ih
    obtain ⟨hkept, drives'⟩ := drives.update (htable ▸ waitless) hupdate
    exact ⟨hkept.trans htable, drives'⟩

/-- Starting a function where no other thread goes on. -/
theorem drives_start {x x₁ : Watch W Body} {script : Script} {function : String} {w w₁ : W}
    (waitless : host.Waitless x.table) (idle : ∀ z ∈ x.threads, z.thread.isDone = true)
    (found : (script.functionOffset? function).isSome = true)
    (hstart : x.start host script function w = .ok x₁ w₁) :
    ∃ t, Thread.start x.nextId script function = .ok t ∧ x₁.table = x.table ∧
      Drives host t w x₁ w₁ := by
  unfold start at hstart
  cases ht : Thread.start x.nextId script function with
  | error e =>
    obtain ⟨offset, hoffset⟩ := Option.isSome_iff_exists.1 found
    rw [Thread.start, hoffset] at ht
    cases ht
  | ok t =>
    rw [ht] at hstart
    obtain ⟨y, w₂, hone, hrun⟩ := bind_ok hstart
    cases hrun
    obtain ⟨free, -⟩ := Thread.free_start ht
    have fresh : Ran host x.table t w ⟨t, []⟩ w := ⟨.refl t w, .inr free⟩
    exact ⟨t, rfl, rfl, .last rfl idle (fresh.runOne waitless free hone)⟩

end Watch

/-- The thread that has been driven to its end has run from its start, whatever slices its run was
cut into. -/
theorem DrivenToEnd.runs {host : Host W Body} {table : HostTable Body}
    (waitless : host.Waitless table) {script : Script} {function : String} {w w' : W}
    {y : Watched W Body} (h : DrivenToEnd host table script function w y w') :
    ∃ t, Thread.start 0 script function = .ok (t.renumber 0) ∧ t.Free ∧
      y.thread.isDone = true ∧ Thread.Runs host table t w y.past y.thread w' := by
  obtain ⟨rfl, idle, found, hstart, updates, hlast, done⟩ := h
  obtain ⟨t, ht, htable, drives⟩ := Watch.drives_start waitless idle found hstart
  obtain ⟨free, hzero⟩ := Thread.free_start ht
  refine ⟨t, hzero, free, done, ?_⟩
  obtain ⟨hkept, drives'⟩ := drives.updates (htable ▸ waitless) updates
  cases drives' with
  | empty hempty => simp [hempty] at hlast
  | last hthreads _ ran =>
    rw [hthreads, List.getLast?_append] at hlast
    cases hlast
    exact (hkept.trans htable) ▸ ran.runs

end SheepScene
