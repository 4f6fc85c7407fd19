import SheepScene.Proofs.Machine.Evaluation
import SheepScene.Proofs.Machine.Slices

/-!
# Evaluation in rounds

An evaluation can be read as a loop with a counter. In each round the thread runs for what is left
of the budget, what it ran is taken off the counter, and a thread that waits is told not to; the
loop ends with the thread or when the counter is zero. `Scheduler.Rounds` are the rounds up to the
result. A slice of a run is a part of the run to the end (`Thread.runToEnd_of_runFor`), so the loop
comes to the result of `Scheduler.evaluate`; and a result on one budget is the result on every
larger one (`Thread.runToEnd_of_le`). The main result is `evaluation_keeps_within_budget`.
-/

set_option autoImplicit false

namespace SheepScene

variable {W Body : Type}

namespace Thread

/-- How a run to the end goes on with a thread that has just run. -/
def goOn (host : Host W Body) (table : HostTable Body) (budget : Nat) (t : Thread) :
    EStateM Fault W (Option (Except ScriptError Value)) :=
  match t.status with
  | .finished => pure (some (.ok t.result))
  | .failed e => pure (some (.error e))
  | .waiting => runToEnd host table budget t.releaseWaits
  | .ready => runToEnd host table budget t

variable {host : Host W Body} {table : HostTable Body}

/-- An evaluation goes on from what its first instruction leaves. -/
theorem runToEnd_of_advance {t t' : Thread} {going : Bool} {w w' : W}
    (h : advance host table t w = .ok (t', going) w') (budget : Nat) :
    runToEnd host table (budget + 1) t w = t'.goOn host table budget w' :=
  bind_of_ok h

/-- A fault in the first instruction is one of the evaluation. -/
theorem runToEnd_of_fault {t : Thread} {f : Fault} {w w' : W}
    (h : advance host table t w = .error f w') (budget : Nat) :
    runToEnd host table (budget + 1) t w = .error f w' :=
  bind_of_error h

/-! ## More instructions -/

/-- A run to the end that is not cut off is the same on every larger budget. -/
theorem runToEnd_of_le {budget budget' : Nat} (le : budget ≤ budget') {t : Thread} {w : W}
    (whole : ∀ v, runToEnd host table budget t w ≠ .ok none v) :
    runToEnd host table budget' t w = runToEnd host table budget t w := by
  induction budget generalizing budget' t w with
  | zero => exact absurd rfl (whole w)
  | succ budget ih =>
    obtain ⟨more, rfl⟩ : ∃ more, budget' = more + 1 := ⟨budget' - 1, by omega⟩
    have le' : budget ≤ more := by omega
    rcases hadv : advance host table t w with ⟨⟨t', going⟩, w'⟩ | ⟨f, w'⟩
    · rw [runToEnd_of_advance hadv] at whole
      rw [runToEnd_of_advance hadv, runToEnd_of_advance hadv]
      unfold goOn at whole ⊢
      cases hstatus : t'.status with
      | finished | failed e => rfl
      | waiting | ready =>
        simp only [hstatus] at whole
        exact ih le' whole
    · rw [runToEnd_of_fault hadv, runToEnd_of_fault hadv]

/-! ## Slices of a run to the end -/

/-- A slice counts one instruction at least, if it has any, and no more than it has; the run to the
end goes on with what the slice leaves. -/
theorem runToEnd_of_runFor {budget executed n : Nat} {t t' : Thread} {w w' : W}
    (ready : t.status = .ready) (h : runFor host table budget executed t w = .ok (t', n) w') :
    executed ≤ n ∧ n ≤ executed + budget ∧ (0 < budget → executed < n) ∧
      runToEnd host table budget t w = t'.goOn host table (executed + budget - n) w' := by
  induction budget generalizing executed t w with
  | zero =>
    cases h
    have same : ({ t with status := .ready } : Thread) = t := by rw [← ready]
    refine ⟨by omega, by omega, by omega, ?_⟩
    rw [same]
    unfold goOn
    simp [ready]
  | succ budget ih =>
    obtain ⟨⟨t₁, going⟩, w₁, hadv, hrest⟩ := bind_ok h
    rw [runToEnd_of_advance hadv]
    cases going with
    | true =>
      have ready₁ : t₁.status = .ready := (advance_status hadv).trans ready
      obtain ⟨hlow, hhigh, -, hrun⟩ := ih ready₁ hrest
      refine ⟨by omega, by omega, by omega, ?_⟩
      have left : executed + 1 + budget - n = executed + (budget + 1) - n := by omega
      rw [← left, ← hrun]
      unfold goOn
      simp [ready₁]
    | false =>
      cases hrest
      refine ⟨by omega, by omega, by omega, ?_⟩
      have left : executed + (budget + 1) - (executed + 1) = budget := by omega
      rw [left]

/-- A fault in a slice is a fault of the run to the end. -/
theorem runToEnd_of_runFor_fault {budget executed : Nat} {t : Thread} {f : Fault} {w w' : W}
    (ready : t.status = .ready) (h : runFor host table budget executed t w = .error f w') :
    runToEnd host table budget t w = .error f w' := by
  induction budget generalizing executed t w with
  | zero => cases h
  | succ budget ih =>
    rcases hadv : advance host table t w with ⟨⟨t₁, going⟩, w₁⟩ | ⟨g, w₁⟩
    · have hrest := (bind_of_ok hadv).symm.trans h
      rw [runToEnd_of_advance hadv]
      cases going with
      | true =>
        have ready₁ : t₁.status = .ready := (advance_status hadv).trans ready
        rw [← ih ready₁ hrest]
        unfold goOn
        simp [ready₁]
      | false => cases hrest
    · rw [runToEnd_of_fault hadv]
      have hfault : runFor host table (budget + 1) executed t w = .error g w₁ :=
        bind_of_error hadv
      rw [h] at hfault
      cases hfault
      rfl

/-- The moments of a run to the end are no more than its budget. -/
theorem length_momentsToEnd_le (budget : Nat) (t : Thread) (w : W) :
    (momentsToEnd host table budget t w).length ≤ budget := by
  induction budget generalizing t w with
  | zero => exact Nat.le_refl 0
  | succ budget ih =>
    unfold momentsToEnd
    rw [List.length_cons]
    apply Nat.succ_le_succ
    split
    · split
      · exact Nat.zero_le _
      · exact Nat.zero_le _
      · exact ih _ _
      · exact ih _ _
    · exact Nat.zero_le _

end Thread

namespace Scheduler

/-! ## Rounds -/

/-- A round of an evaluation: what was left of the budget before it, and how many instructions it
ran. -/
structure Round where
  remaining : UInt32
  executed : Nat

/-- How many instructions rounds run in all. -/
def executedIn : List Round → Nat
  | [] => 0
  | r :: rounds => r.executed + executedIn rounds

/-- What a round leads to. -/
inductive RoundResult where
  | ended (outcome : Except ScriptError Value)
  | again (left : UInt32) (t : Thread)

variable (host : Host W Body) (s : Scheduler Body) (function : String)

/-- What a round leads to that leaves the thread `t` and `left` of the budget. -/
def roundResult (left : UInt32) (t : Thread) : RoundResult :=
  let goOn (t : Thread) : RoundResult :=
    if left = 0 then .ended (.error (.budgetExceeded function s.budget)) else .again left t
  match t.status with
  | .finished => .ended (.ok t.result)
  | .failed e => .ended (.error e)
  | .waiting => goOn t.releaseWaits
  | .ready => goOn t

/-- One round of an evaluation. The subtraction wraps around if the thread runs more instructions
than there are left. -/
def round (remaining : UInt32) (t : Thread) : EStateM Fault W (Nat × RoundResult) := do
  let (t, executed) ← t.run host s.table remaining.toNat
  return (executed, s.roundResult function (remaining - .ofNat executed) t)

/-- The rounds of an evaluation from a thread to the result; a round that ends in a fault is not
among them. -/
inductive Rounds : UInt32 → Thread → W → List Round →
    EStateM.Result Fault W (Except ScriptError Value) → Prop where
  | last {remaining t w executed outcome w'} :
      s.round host function remaining t w = .ok (executed, .ended outcome) w' →
      Rounds remaining t w [⟨remaining, executed⟩] (.ok outcome w')
  | fault {remaining t w f w'} : s.round host function remaining t w = .error f w' →
      Rounds remaining t w [] (.error f w')
  | again {remaining t w executed left t' w' rounds result} :
      s.round host function remaining t w = .ok (executed, .again left t') w' →
      Rounds left t' w' rounds result →
      Rounds remaining t w (⟨remaining, executed⟩ :: rounds) result

/-- The rounds of evaluating a function: none if there is no such function. -/
inductive EvaluatesIn (script : Script) (w : W) : List Round →
    EStateM.Result Fault W (Except ScriptError Value) → Prop where
  | unknown {e} : Thread.start 0 script function = .error e →
      EvaluatesIn script w [] (.ok (.error e) w)
  | started {t rounds result} : Thread.start 0 script function = .ok t →
      Rounds host s function s.budget t w rounds result → EvaluatesIn script w rounds result

/-- The outcome of an evaluation whose run to the end comes to `result?`. -/
def conclude (result? : Option (Except ScriptError Value)) : Except ScriptError Value :=
  result?.getD (.error (.budgetExceeded function s.budget))

variable {host s function}

/-- To evaluate is to run a new thread to its end and to conclude from that. -/
theorem evaluate_eq {script : Script} {t : Thread}
    (h : Thread.start 0 script function = .ok t) :
    s.evaluate host script function
      = s.conclude function <$> t.runToEnd host s.table s.budget.toNat := by
  unfold evaluate
  rw [h]
  dsimp only
  rw [map_eq_pure_bind]
  refine bind_congr fun result? => ?_
  cases result? <;> rfl

/-- After a round the evaluation is over, with the outcome that the run to the end has, or it goes
on with a thread that can go on. -/
theorem roundResult_cases (host : Host W Body) (s : Scheduler Body) (function : String)
    (left : UInt32) (t : Thread) :
    (∃ outcome, s.roundResult function left t = .ended outcome ∧
      ∀ w, (s.conclude function <$> t.goOn host s.table left.toNat) w = .ok outcome w) ∨
    (∃ t', s.roundResult function left t = .again left t' ∧ left ≠ 0 ∧ t'.status = .ready ∧
      t.goOn host s.table left.toNat = t'.runToEnd host s.table left.toNat) := by
  unfold roundResult Thread.goOn
  have zero : ∀ t' : Thread, left = 0 →
      ∀ w, (s.conclude function <$> t'.runToEnd host s.table left.toNat) w
        = .ok (.error (.budgetExceeded function s.budget)) w := by
    rintro t' rfl w
    rfl
  cases hstatus : t.status with
  | finished => exact .inl ⟨_, rfl, fun _ => rfl⟩
  | failed e => exact .inl ⟨_, rfl, fun _ => rfl⟩
  | waiting =>
    by_cases hleft : left = 0
    · exact .inl ⟨_, if_pos hleft, zero t.releaseWaits hleft⟩
    · exact .inr ⟨t.releaseWaits, if_neg hleft, hleft, rfl, rfl⟩
  | ready =>
    by_cases hleft : left = 0
    · exact .inl ⟨_, if_pos hleft, zero t hleft⟩
    · exact .inr ⟨t, if_neg hleft, hleft, hstatus, rfl⟩

/-- A round runs no more instructions than are left, and some if any are left, so that the counter
does not wrap around; the run to the end goes on with the thread that the round leaves. -/
theorem round_ok {remaining : UInt32} {t : Thread} {executed : Nat} {result : RoundResult}
    {w w' : W} (ready : t.status = .ready)
    (h : s.round host function remaining t w = .ok (executed, result) w') :
    ∃ t', result = s.roundResult function (remaining - .ofNat executed) t' ∧
      executed ≤ remaining.toNat ∧ (remaining ≠ 0 → 0 < executed) ∧
      (remaining - .ofNat executed).toNat = remaining.toNat - executed ∧
      t.runToEnd host s.table remaining.toNat w
        = t'.goOn host s.table (remaining - .ofNat executed).toNat w' := by
  obtain ⟨⟨t', n⟩, w₁, hrun, hrest⟩ := bind_ok h
  cases hrest
  rw [(Thread.run_ready ready).1] at hrun
  obtain ⟨-, hle, hsome, hgoes⟩ := Thread.runToEnd_of_runFor ready hrun
  rw [Nat.zero_add] at hle hgoes
  have hword : (UInt32.ofNat executed).toNat = executed := by
    have := remaining.toNat_lt
    rw [UInt32.toNat_ofNat']
    omega
  have hleft : (remaining - .ofNat executed).toNat = remaining.toNat - executed := by
    rw [UInt32.toNat_sub_of_le _ _ (by rw [UInt32.le_iff_toNat_le, hword]; exact hle), hword]
  refine ⟨t', rfl, hle, fun hne => hsome ?_, hleft, ?_⟩
  · have : remaining.toNat ≠ 0 := fun hzero => hne (UInt32.toNat_inj.1 hzero)
    omega
  · rw [hleft]
    exact hgoes

/-- The rounds come to the result of the run to the end, never run more than is left, and in all no
more than was left at first. -/
theorem Rounds.sound {remaining : UInt32} {t : Thread} {w : W} {rounds : List Round}
    {result : EStateM.Result Fault W (Except ScriptError Value)}
    (h : Rounds host s function remaining t w rounds result) (ready : t.status = .ready) :
    result = (s.conclude function <$> t.runToEnd host s.table remaining.toNat) w ∧
      (∀ r ∈ rounds, r.executed ≤ r.remaining.toNat ∧ (r.remaining ≠ 0 → 0 < r.executed)) ∧
      executedIn rounds ≤ remaining.toNat := by
  induction h with
  | @last remaining t w executed outcome w' hround =>
    obtain ⟨t', hresult, hle, hsome, -, hgoes⟩ := round_ok ready hround
    refine ⟨?_, ?_, ?_⟩
    · rcases roundResult_cases host s function
        (remaining - .ofNat executed) t' with ⟨outcome', hover, hend⟩ | ⟨t'', hagain, -⟩
      · rw [hover] at hresult
        cases hresult
        rw [← hend w']
        exact map_of_eq hgoes.symm
      · rw [hagain] at hresult
        cases hresult
    · simpa using ⟨hle, hsome⟩
    · exact hle
  | @fault remaining t w f w' hround =>
    refine ⟨?_, by simp, Nat.zero_le _⟩
    rcases hrun : t.run host s.table remaining.toNat w with ⟨r, w₁⟩ | ⟨g, w₁⟩
    · have := bind_of_ok (f := fun r : Thread × Nat => (return (r.2,
        s.roundResult function (remaining - .ofNat r.2) r.1) : EStateM Fault W _)) hrun
      have hok := this.symm.trans hround
      cases hok
    · have hfault : s.round host function remaining t w = .error g w₁ := bind_of_error hrun
      rw [hround] at hfault
      cases hfault
      rw [(Thread.run_ready ready).1] at hrun
      have hend := Thread.runToEnd_of_runFor_fault ready hrun
      exact (map_of_eq (y := throw f) hend).symm
  | @again remaining t w executed left t' w' rounds result hround _ ih =>
    obtain ⟨t₁, hresult, hle, hsome, hleft, hgoes⟩ := round_ok ready hround
    rcases roundResult_cases host s function
      (remaining - .ofNat executed) t₁ with ⟨outcome', hover, -⟩ | ⟨t'', hagain, -, hready, hto⟩
    · rw [hover] at hresult
      cases hresult
    · rw [hagain] at hresult
      cases hresult
      obtain ⟨hsame, hrounds, hsum⟩ := ih hready
      refine ⟨?_, ?_, ?_⟩
      · rw [hsame, ← hto]
        exact map_of_eq hgoes.symm
      · intro r hr
        rcases List.mem_cons.1 hr with rfl | hr
        · exact ⟨hle, hsome⟩
        · exact hrounds r hr
      · unfold executedIn
        dsimp only
        omega

/-- The rounds come to an end: each but the last leaves less of the budget than there was. -/
theorem exists_rounds (host : Host W Body) (s : Scheduler Body) (function : String)
    (remaining : UInt32) (t : Thread) (w : W) (ready : t.status = .ready) :
    ∃ rounds result, Rounds host s function remaining t w rounds result := by
  induction hn : remaining.toNat using Nat.strongRecOn generalizing remaining t w with
  | ind n ih =>
    rcases hround : s.round host function remaining t w with ⟨⟨executed, next⟩, w'⟩ | ⟨f, w'⟩
    · obtain ⟨t₁, hresult, hle, hsome, hleft, -⟩ := round_ok ready hround
      rcases roundResult_cases host s function
        (remaining - .ofNat executed) t₁ with ⟨outcome, hover, -⟩ | ⟨t', hagain, hne, hready, -⟩
      · rw [hover] at hresult
        subst hresult
        exact ⟨_, _, .last hround⟩
      · rw [hagain] at hresult
        subst hresult
        have hpos : (remaining - .ofNat executed).toNat ≠ 0 := fun hzero =>
          hne (UInt32.toNat_inj.1 hzero)
        have hremaining : remaining ≠ 0 := by
          intro hzero
          have : remaining.toNat = 0 := by rw [hzero]; rfl
          omega
        have hless : (remaining - .ofNat executed).toNat < n := by
          have := hsome hremaining
          omega
        obtain ⟨rounds, result, hrest⟩ := ih _ hless (remaining - .ofNat executed) t' w' hready rfl
        exact ⟨_, _, .again hround hrest⟩
    · exact ⟨_, _, .fault hround⟩

/-- The moments of an evaluation are no more than its budget. -/
theorem length_evaluationMoments_le (host : Host W Body) (s : Scheduler Body) (script : Script)
    (function : String) (w : W) :
    (s.evaluationMoments host script function w).length ≤ s.budget.toNat := by
  unfold evaluationMoments
  split
  · exact Nat.zero_le _
  · exact Thread.length_momentsToEnd_le _ _ _

/-- An evaluation that is not cut off is the same on every larger budget. -/
theorem evaluate_of_le {budget : UInt32} (le : s.budget ≤ budget) {script : Script} {w : W}
    (whole : ∀ v, s.evaluate host script function w
      ≠ .ok (.error (.budgetExceeded function s.budget)) v) :
    Scheduler.evaluate host { s with budget } script function w
      = s.evaluate host script function w := by
  cases ht : Thread.start 0 script function with
  | error e =>
    unfold evaluate
    rw [ht]
  | ok t =>
    rw [evaluate_eq ht] at whole
    rw [evaluate_eq ht, evaluate_eq ht]
    have uncut : ∀ v, t.runToEnd host s.table s.budget.toNat w ≠ .ok none v := by
      intro v hcut
      exact whole v (map_of_eq (y := pure none) hcut)
    have same := Thread.runToEnd_of_le (UInt32.le_iff_toNat_le.1 le) uncut
    -- only the outcome of a run that is cut off mentions the budget
    rcases hrun : t.runToEnd host s.table s.budget.toNat w with ⟨_ | outcome, v⟩ | ⟨f, v⟩
    · exact absurd hrun (uncut v)
    · have larger := map_of_eq (f := conclude { s with budget } function)
        (y := pure (some outcome)) (same.trans hrun)
      have smaller := map_of_eq (f := s.conclude function) (y := pure (some outcome)) hrun
      exact larger.trans smaller.symm
    · have larger := map_of_eq (f := conclude { s with budget } function) (y := throw f)
        (same.trans hrun)
      have smaller := map_of_eq (f := s.conclude function) (y := throw f) hrun
      exact larger.trans smaller.symm

end Scheduler

/-- Evaluation keeps within its budget, also where the thread yields or waits. It comes to an end in
rounds, and its rounds can only come to its result; no round runs more instructions than the counter
has left, so that taking them off never wraps around, and all rounds together, and the evaluation as
a whole even where it ends in a fault, run no more instructions than the budget has. An evaluation
that is not cut off has the same result and leaves the same world on every larger budget. -/
theorem evaluation_keeps_within_budget (host : Host W Body) (s : Scheduler Body) (script : Script)
    (function : String) (w : W) :
    (∃ rounds, s.EvaluatesIn host function script w rounds (s.evaluate host script function w)) ∧
    (∀ rounds result, s.EvaluatesIn host function script w rounds result →
      result = s.evaluate host script function w ∧
      (∀ r ∈ rounds, r.executed ≤ r.remaining.toNat ∧ (r.remaining ≠ 0 → 0 < r.executed)) ∧
      Scheduler.executedIn rounds ≤ s.budget.toNat) ∧
    (s.evaluationMoments host script function w).length ≤ s.budget.toNat ∧
    ∀ budget, s.budget ≤ budget →
      (∀ v, s.evaluate host script function w
        ≠ .ok (.error (.budgetExceeded function s.budget)) v) →
      Scheduler.evaluate host { s with budget } script function w
        = s.evaluate host script function w := by
  have sound : ∀ rounds result, s.EvaluatesIn host function script w rounds result →
      result = s.evaluate host script function w ∧
      (∀ r ∈ rounds, r.executed ≤ r.remaining.toNat ∧ (r.remaining ≠ 0 → 0 < r.executed)) ∧
      Scheduler.executedIn rounds ≤ s.budget.toNat := by
    intro rounds result h
    cases h with
    | unknown hstart =>
      refine ⟨?_, by simp, Nat.zero_le _⟩
      unfold Scheduler.evaluate
      rw [hstart]
      rfl
    | started hstart hrounds =>
      have ready := (Thread.free_start hstart).1.status
      rw [Scheduler.evaluate_eq hstart]
      exact hrounds.sound ready
  have ends : ∃ rounds result, s.EvaluatesIn host function script w rounds result := by
    cases hstart : Thread.start 0 script function with
    | error e => exact ⟨_, _, .unknown hstart⟩
    | ok t =>
      have ready := (Thread.free_start hstart).1.status
      obtain ⟨rounds, result, h⟩ := Scheduler.exists_rounds host s function s.budget t w ready
      exact ⟨rounds, result, .started hstart h⟩
  refine ⟨?_, sound, Scheduler.length_evaluationMoments_le host s script function w, ?_⟩
  · obtain ⟨rounds, result, h⟩ := ends
    exact ⟨rounds, (sound rounds result h).1 ▸ h⟩
  · intro budget le whole
    exact Scheduler.evaluate_of_le le whole

/-- A scheduler that lets scripts knock, five instructions at a time. -/
def hastyDoor : Scheduler Unit :=
  { doorWatch.scheduler with budget := 5 }

/-- The wait for a shut door is given up after four instructions, which leaves the fifth for a
second round. On a larger budget the value is the same; on a smaller one there is none. -/
theorem evaluation_keeps_within_budget_door :
    hastyDoor.EvaluatesIn doorHost "main" knock false [⟨5, 4⟩, ⟨1, 1⟩] (.ok (.ok (.int 0)) false) ∧
      hastyDoor.budget ≤ 9 ∧
      (∀ v, hastyDoor.evaluate doorHost knock "main" false
        ≠ .ok (.error (.budgetExceeded "main" 5)) v) ∧
      Scheduler.evaluate doorHost { hastyDoor with budget := 9 } knock "main" false
        = .ok (.ok (.int 0)) false ∧
      Scheduler.evaluate doorHost { hastyDoor with budget := 4 } knock "main" false
        = .ok (.error (.budgetExceeded "main" 4)) false := by
  obtain ⟨-, sound, -, monotone⟩ :=
    evaluation_keeps_within_budget doorHost hastyDoor knock "main" false
  have rounds : hastyDoor.EvaluatesIn doorHost "main" knock false [⟨5, 4⟩, ⟨1, 1⟩]
      (.ok (.ok (.int 0)) false) := .started rfl (.again rfl (.last rfl))
  have value : hastyDoor.evaluate doorHost knock "main" false = .ok (.ok (.int 0)) false :=
    (sound _ _ rounds).1.symm
  have whole : ∀ v, hastyDoor.evaluate doorHost knock "main" false
      ≠ .ok (.error (.budgetExceeded "main" 5)) v := by
    intro v hcut
    rw [value] at hcut
    cases hcut
  have larger : hastyDoor.budget ≤ 9 := by decide
  exact ⟨rounds, larger, whole, (monotone 9 larger whole).trans value, rfl⟩

end SheepScene
