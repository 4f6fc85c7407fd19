import SheepScene.Proofs.Machine.Boundaries

/-!
# Slices of a run

A run is taken apart into instructions and slices. `Thread.advance_cases` says what one instruction
leaves behind, `Thread.runFor_cases` how a run within a budget ends, and `Thread.run_ends` what
becomes of a thread that is let run. A slice never runs more instructions than its budget has.
-/

set_option autoImplicit false

namespace SheepScene

variable {W Body : Type}

namespace Thread

/-- The status of a thread whose run stops after an instruction with this outcome. -/
def statusAfter : Except ScriptError Flow → ThreadStatus
  | .ok .proceed | .ok .yield => .ready
  | .ok .wait => .waiting
  | .ok .finish => .finished
  | .error e => .failed e

/-- The world once the failure of a thread, if it has failed, is reported. -/
def noted (host : Host W Body) (t : Thread) (w : W) : W :=
  match t.error? with
  | some e => host.report (t.failureMessage e) w
  | none => w

/-- The host hears nothing about a thread that is still alive. -/
theorem noted_of_live {t : Thread} (host : Host W Body) (live : t.isDone = false) (w : W) :
    t.noted host w = w := by
  unfold isDone at live
  unfold noted error?
  cases hstatus : t.status with
  | finished | failed e => simp [hstatus] at live
  | ready | waiting => rfl

variable {host : Host W Body} {table : HostTable Body}

section Advance

variable {t t₁ : Thread} {r : Except ScriptError Flow} {w w₁ : W}

/-- Where the instruction says to go on, the loop goes on with the thread and the world it left. -/
theorem advance_proceed (h : step host table t w = .ok (t₁, .ok .proceed) w₁) :
    advance host table t w = .ok (t₁, true) w₁ :=
  bind_of_ok h

/-- Where the instruction ends the turn, the loop stops with the status the instruction asks for. -/
theorem advance_stop (h : step host table t w = .ok (t₁, r) w₁) (stop : r ≠ .ok .proceed) :
    advance host table t w = .ok ({ t₁ with status := statusAfter r }, false)
      (noted host { t₁ with status := statusAfter r } w₁) := by
  unfold advance
  rw [bind_of_ok h]
  cases r with
  | error e => rfl
  | ok flow =>
    cases flow with
    | proceed => exact absurd rfl stop
    | yield | wait | finish => rfl

end Advance

/-- An instruction lets the run go on, or it stops the run and settles the status. -/
theorem advance_cases {t t' : Thread} {going : Bool} {w w' : W}
    (h : advance host table t w = .ok (t', going) w') :
    (going = true ∧ step host table t w = .ok (t', .ok .proceed) w') ∨
    (going = false ∧ ∃ t₁ r w₁, step host table t w = .ok (t₁, r) w₁ ∧ r ≠ .ok .proceed ∧
      t' = { t₁ with status := statusAfter r } ∧ w' = t'.noted host w₁) := by
  obtain ⟨⟨t₁, r⟩, w₁, hstep, -⟩ := bind_ok h
  by_cases hr : r = .ok .proceed
  · subst hr
    have hgo := advance_proceed hstep
    rw [h] at hgo
    cases hgo
    exact .inl ⟨rfl, hstep⟩
  · have hstop := advance_stop hstep hr
    rw [h] at hstop
    cases hstop
    exact .inr ⟨rfl, t₁, r, w₁, hstep, hr, rfl, rfl⟩

/-- While the run goes on nothing settles the status. -/
theorem advance_status {t t' : Thread} {w w' : W}
    (h : advance host table t w = .ok (t', true) w') : t'.status = t.status := by
  rcases advance_cases h with ⟨-, hstep⟩ | ⟨hgoing, -⟩
  · exact step_status hstep
  · cases hgoing

/-- A run within a budget uses it up, or its last instruction settles the status. -/
theorem runFor_cases {budget executed n : Nat} {t t' : Thread} {w w' : W}
    (h : runFor host table budget executed t w = .ok (t', n) w') :
    (n = executed + budget ∧ t'.status = .ready) ∨
    ∃ m t₁ r w₁, (momentsFor host table budget t w).getLast? = some m ∧
      step host table m.thread m.world = .ok (t₁, r) w₁ ∧ r ≠ .ok .proceed ∧
      t' = { t₁ with status := statusAfter r } ∧ w' = t'.noted host w₁ := by
  induction budget generalizing executed t w with
  | zero =>
    cases h
    exact .inl ⟨rfl, rfl⟩
  | succ budget ih =>
    obtain ⟨⟨t₁, going⟩, w₁, hadv, hrest⟩ := bind_ok h
    unfold momentsFor
    rw [hadv]
    rcases advance_cases hadv with ⟨rfl, -⟩ | ⟨rfl, t₂, r, w₂, hstep, hr, hsettled, hnoted⟩
    · rcases ih hrest with ⟨hn, hready⟩ | ⟨m, t₂, r, w₂, hlast, hend⟩
      · exact .inl ⟨by omega, hready⟩
      · refine .inr ⟨m, t₂, r, w₂, ?_, hend⟩
        simp [List.getLast?_cons, hlast]
    · cases hrest
      exact .inr ⟨_, t₂, r, w₂, rfl, hstep, hr, hsettled, hnoted⟩

/-- A run on a budget reaches no more moments than the budget has instructions. -/
theorem length_momentsFor_le (budget : Nat) (t : Thread) (w : W) :
    (momentsFor host table budget t w).length ≤ budget := by
  induction budget generalizing t w with
  | zero => exact Nat.le_refl 0
  | succ budget ih =>
    unfold momentsFor
    rcases hadv : advance host table t w with ⟨⟨t₁, _ | _⟩, w₁⟩ | ⟨f, w₁⟩
    · simp
    · have hrest := ih t₁ w₁
      simp only [List.length_cons]
      omega
    · simp

/-! ## Letting a thread run -/

section Run

variable {budget : Nat} {t : Thread} {w : W}

/-- A thread that has ended runs nothing, on any budget. -/
theorem run_done (host : Host W Body) (table : HostTable Body) (budget : Nat) (w : W)
    (done : t.isDone = true) :
    t.run host table budget w = .ok (t, 0) w ∧ t.moments host table budget w = [] := by
  unfold isDone at done
  unfold run moments
  cases hstatus : t.status with
  | finished | failed e => exact ⟨rfl, rfl⟩
  | ready | waiting => simp [hstatus] at done

/-- A ready thread enters the loop as it stands. -/
theorem run_ready (ready : t.status = .ready) :
    t.run host table budget w = runFor host table budget 0 t w ∧
      t.moments host table budget w = momentsFor host table budget t w := by
  unfold run moments
  simp only [ready]
  exact ⟨trivial, trivial⟩

/-- A waiting thread with an open handle runs nothing: only the handles that are complete leave its
list. -/
theorem run_blocked (table : HostTable Body) (budget : Nat) (waiting : t.status = .waiting)
    (blocked : pending (host.isComplete w) t.waits ≠ []) :
    t.run host table budget w
        = .ok ({ t with waits := pending (host.isComplete w) t.waits }, 0) w ∧
      t.moments host table budget w = [] := by
  have hempty : ¬ (pending (host.isComplete w) t.waits).isEmpty = true := by simpa using blocked
  unfold run moments
  simp only [waiting]
  refine ⟨(bind_of_ok (t := w) rfl).trans ?_, if_neg hempty⟩
  rw [if_neg hempty]
  rfl

/-- A waiting thread whose handles are all complete is ready again, and enters the loop. -/
theorem run_released (waiting : t.status = .waiting)
    (released : pending (host.isComplete w) t.waits = []) :
    t.run host table budget w = runFor host table budget 0 { t with waits := [] } w ∧
      t.moments host table budget w = momentsFor host table budget { t with waits := [] } w := by
  unfold run moments
  simp only [waiting]
  refine ⟨(bind_of_ok (t := w) rfl).trans ?_, ?_⟩
  · simp [released]
  · simp [released]

end Run

/-- A thread has ended, or can go on, or waits. -/
theorem status_cases (t : Thread) :
    t.isDone = true ∨ t.status = .ready ∨ t.status = .waiting := by
  unfold isDone
  cases t.status <;> simp

/-- A turn reaches no more moments than its budget has instructions. -/
theorem length_moments_le (budget : Nat) (t : Thread) (w : W) :
    (t.moments host table budget w).length ≤ budget := by
  unfold moments
  split
  · exact Nat.zero_le _
  · exact Nat.zero_le _
  · dsimp only
    split
    · exact length_momentsFor_le _ _ _
    · exact Nat.zero_le _
  · exact length_momentsFor_le _ _ _

/-- How letting a thread run comes to an end: it had ended, or it is still blocked, or the budget is
used up, or its last instruction settles the status. -/
inductive RunEnds (host : Host W Body) (table : HostTable Body) (budget : Nat) (t : Thread)
    (w : W) : Thread → Nat → W → Prop where
  | ended : t.isDone = true → RunEnds host table budget t w t 0 w
  | blocked : t.status = .waiting → pending (host.isComplete w) t.waits ≠ [] →
      RunEnds host table budget t w { t with waits := pending (host.isComplete w) t.waits } 0 w
  | usedUp {t' w'} : t'.status = .ready → RunEnds host table budget t w t' budget w'
  | stopped {m t₁ r w₁ t' n} : (t.moments host table budget w).getLast? = some m →
      step host table m.thread m.world = .ok (t₁, r) w₁ → r ≠ .ok .proceed →
      t' = { t₁ with status := statusAfter r } →
      RunEnds host table budget t w t' n (t'.noted host w₁)

/-- Every turn that comes to an end ends in one of the ways listed by `RunEnds`. -/
theorem run_ends {budget n : Nat} {t t' : Thread} {w w' : W}
    (h : t.run host table budget w = .ok (t', n) w') : RunEnds host table budget t w t' n w' := by
  have slice : ∀ t₀ : Thread, t.moments host table budget w = momentsFor host table budget t₀ w →
      runFor host table budget 0 t₀ w = .ok (t', n) w' → RunEnds host table budget t w t' n w' := by
    intro t₀ same hrun
    rcases runFor_cases hrun with ⟨hn, hready⟩ | ⟨m, t₁, r, w₁, hlast, hstep, hr, hsettled, rfl⟩
    · rw [Nat.zero_add] at hn
      subst hn
      exact .usedUp hready
    · rw [← same] at hlast
      exact .stopped hlast hstep hr hsettled
  rcases status_cases t with done | ready | waiting
  · have hrun := (run_done host table budget w done).1
    rw [h] at hrun
    cases hrun
    exact .ended done
  · rw [(run_ready ready).1] at h
    exact slice t (run_ready ready).2 h
  · by_cases hpending : pending (host.isComplete w) t.waits = []
    · rw [(run_released waiting hpending).1] at h
      exact slice _ (run_released waiting hpending).2 h
    · have hrun := (run_blocked table budget waiting hpending).1
      rw [h] at hrun
      cases hrun
      exact .blocked waiting hpending

/-! ## What runs do not change -/

/-- What steps cannot break no run breaks, if it does not depend on the status either. -/
theorem StepFrame.invariant {R : Thread → Thread → Prop} (frame : StepFrame R)
    (settle : ∀ t status, R t { t with status }) (host : Host W Body) (t : Thread) :
    Invariant host (R t) where
  step h hstep := frame.trans h (frame.step hstep)
  resume {t'} status waits h :=
    frame.trans h (frame.trans (frame.waits t' waits) (settle _ status))

/-- A turn leaves the thread its number. -/
theorem run_id {budget n : Nat} {t t' : Thread} {w w' : W}
    (h : t.run host table budget w = .ok (t', n) w') : t'.id = t.id := by
  have frame : StepFrame fun t t' => t'.id = t.id :=
    stepFrame_of (fun _ _ => rfl) (fun _ _ _ => rfl) (fun _ _ => rfl) (fun _ _ => rfl)
      (fun _ _ => rfl)
  exact (frame.invariant (fun _ _ => rfl) host t).run rfl h

end Thread

end SheepScene
