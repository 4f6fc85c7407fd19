import SheepScene.Proofs.Machine.Boundaries

/-!
# The number of a thread

A thread runs the same way under every number: only the report of its failure mentions it. Steps of
a thread alone are blind to the number (`Exec.Blind`, `blind_execute`), hence so are steps in the
world (`step_renumber`), and an instruction of a renumbered thread has the same effect up to what is
reported (`Retold`, `advance_renumber`).
-/

set_option autoImplicit false

namespace SheepScene

namespace Thread

/-- The same thread under another number. -/
def renumber (id : UInt32) (t : Thread) : Thread :=
  { t with id }

variable {id : UInt32} {α β : Type}

namespace Exec

/-! ## Steps that do not see the number -/

/-- Steps that do the same for a thread under another number. -/
def Blind (id : UInt32) (x : Exec α) : Prop :=
  ∀ t : Thread, x.run.run (t.renumber id) = ((x.run.run t).1, (x.run.run t).2.renumber id)

/-- Two steps in turn are blind to the number when each of them is. -/
theorem blind_bind {x : Exec α} {f : α → Exec β} (hx : Blind id x) (hf : ∀ a, Blind id (f a)) :
    Blind id (x >>= f) := by
  intro t
  rw [run_bind, run_bind, hx t]
  rcases x.run.run t with ⟨e | a, t'⟩
  · rfl
  · exact hf a t'

/-- To answer is blind to the number. -/
theorem blind_pure (a : α) : Blind id (pure a) :=
  fun _ => rfl

/-- To fail is blind to the number. -/
theorem blind_throw (e : Stop) : Blind id (throw e : Exec α) :=
  fun _ => rfl

/-- A change that keeps to the other fields, and steps after it. -/
theorem blind_modify {f : Thread → Thread} {g : Unit → Exec α}
    (h : ∀ t : Thread, f (t.renumber id) = (f t).renumber id) (hg : ∀ u, Blind id (g u)) :
    Blind id (modify f >>= g) :=
  blind_bind (fun t => Prod.ext rfl (h t)) hg

/-- A look at anything but the number, and steps after it. -/
theorem blind_get {f : Thread → Exec α} (look : ∀ t : Thread, f (t.renumber id) = f t)
    (hf : ∀ t, Blind id (f t)) : Blind id (get >>= f) := by
  intro t
  rw [run_bind, run_bind, run_get, run_get]
  change (f (t.renumber id)).run.run (t.renumber id) = _
  rw [look t]
  exact hf t t

/-- To pass on a result or an error is blind to the number. -/
theorem blind_lift (x : Except ScriptError α) : Blind id (lift x) := by
  cases x with
  | ok a => exact blind_pure a
  | error e => exact blind_throw _

/-- To pass on what the stack does is blind to the number. -/
theorem blind_liftStack (x : Except Fault α) : Blind id (liftStack x) := by
  cases x with
  | ok a => exact blind_pure a
  | error e => exact blind_throw _

/-- To take a value for a number is blind to the number of the thread. -/
theorem blind_number (pc : Nat) (operation : String) (convert : Value → Option α) (v : Value) :
    Blind id (number pc operation convert v) := by
  unfold number
  split
  · exact blind_pure _
  · exact blind_throw _

/-- To put a value on the stack is blind to the number. -/
theorem blind_push (v : Value) : Blind id (push v) := by
  refine blind_get (fun _ => rfl) fun t => ?_
  refine blind_bind (blind_liftStack _) fun stack => ?_
  exact fun _ => rfl

/-- To take a value from the stack is blind to the number. -/
theorem blind_pop : Blind id pop := by
  refine blind_get (fun _ => rfl) fun t => ?_
  refine blind_bind (blind_liftStack _) fun r => ?_
  exact blind_modify (fun _ => rfl) fun _ => blind_pure _

/-- To jump is blind to the number. -/
theorem blind_jump (pc : Nat) (target : UInt32) : Blind id (jump pc target) := by
  refine blind_get (fun _ => rfl) fun t => ?_
  split
  · exact blind_bind (blind_throw _) fun _ => fun _ => rfl
  · exact fun _ => rfl

/-- To put a value on the stack and go on is blind to the number. -/
theorem blind_pushProceed (v : Value) : Blind id (do push v; return Flow.proceed) :=
  blind_bind (blind_push v) fun _ => blind_pure _

/-- An instruction other than a host call does not see the number. -/
theorem blind_execute (isComplete : WaitHandle → Bool) (pc : Nat) (i : Instruction) :
    Blind id (execute isComplete pc i) := by
  have pop2 : ∀ {f : Value → Value → Exec Flow}, (∀ a b, Blind id (f a b)) →
      Blind id (do let b ← pop; let a ← pop; f a b) := by
    intro f hf
    refine blind_bind blind_pop fun b => ?_
    exact blind_bind blind_pop fun a => hf a b
  unfold execute
  refine blind_get (fun _ => rfl) fun t => ?_
  cases i with
  | sitnSpin | debugBreakpoint | callSysFunction | yield | returnV => exact blind_pure _
  | branch target | branchGoto target =>
    exact blind_bind (blind_jump pc target) fun _ => blind_pure _
  | branchIfZero target =>
    refine blind_bind blind_pop fun v => ?_
    dsimp only
    split
    · exact blind_bind (blind_jump pc target) fun _ => blind_pure _
    · exact blind_pure _
  | beginWait => exact blind_modify (fun _ => rfl) fun _ => blind_pure _
  | endWait =>
    refine blind_modify (fun _ => rfl) fun _ => ?_
    refine blind_get (fun _ => rfl) fun t => ?_
    dsimp only
    split
    · refine blind_modify (fun _ => rfl) fun _ => ?_
      refine blind_get (fun _ => rfl) fun t => ?_
      split
      · exact blind_pure _
      · exact blind_pure _
    · exact blind_pure _
  | store kind index =>
    refine blind_bind blind_pop fun v => ?_
    refine blind_bind (blind_lift _) fun v => ?_
    refine blind_get (fun _ => rfl) fun t => ?_
    dsimp only
    split
    · refine blind_bind (blind_throw _) fun _ => ?_
      exact blind_modify (fun _ => rfl) fun _ => blind_pure _
    · exact blind_modify (fun _ => rfl) fun _ => blind_pure _
  | load kind index =>
    refine blind_get (fun _ => rfl) fun t => ?_
    split
    · exact blind_throw _
    · exact blind_bind (blind_lift _) fun v => blind_pushProceed v
  | pushI | pushF | pushS => exact blind_pushProceed _
  | pop count =>
    refine blind_get (fun _ => rfl) fun t => ?_
    refine blind_bind (blind_liftStack _) fun stack => ?_
    exact blind_modify (fun _ => rfl) fun _ => blind_pure _
  | binary op flavour =>
    exact pop2 fun a b => blind_bind (blind_lift _) fun v => blind_pushProceed v
  | negate flavour =>
    refine blind_bind blind_pop fun v => ?_
    exact blind_bind (blind_lift _) fun v => blind_pushProceed v
  | iToF | fToI =>
    refine blind_bind blind_pop fun v => ?_
    exact blind_bind (blind_number _ _ _ _) fun n => blind_pushProceed _
  | modulo =>
    refine pop2 fun a b => ?_
    refine blind_bind (blind_number _ _ _ _) fun y => ?_
    refine blind_bind (blind_number _ _ _ _) fun x => ?_
    dsimp only
    split
    · exact blind_bind (blind_throw _) fun _ => blind_pushProceed _
    · exact blind_pushProceed _
  | and | or => exact pop2 fun a b => blind_pushProceed _
  | not => exact blind_bind blind_pop fun v => blind_pushProceed _
  | getString =>
    refine blind_bind blind_pop fun v => ?_
    exact blind_bind (blind_lift _) fun v => blind_pushProceed v

/-- To collect the arguments of a call is blind to the number. -/
theorem blind_callArguments {Body : Type} (table : HostTable Body) (pc : Nat) (index : UInt32) :
    Blind id (callArguments table pc index) := by
  unfold callArguments
  refine blind_get (fun _ => rfl) fun t => ?_
  dsimp only
  split
  · split
    · rename_i f hf
      refine blind_bind blind_pop fun v => ?_
      cases v with
      | int count =>
        refine blind_get (fun _ => rfl) fun t' => ?_
        have taken : ∀ arguments : Except ScriptError (List Value), Blind id (do
            modify fun t => { t with stack := t'.stack.without f.args.length }
            let args ← lift arguments
            return (f, args)) := by
          intro arguments
          refine blind_modify (fun _ => rfl) fun _ => ?_
          exact blind_bind (blind_lift _) fun args => blind_pure _
        split
        · exact blind_bind (blind_throw _) fun _ => taken _
        · exact taken _
      | float x | string s | offset i => exact blind_throw _
    · exact blind_throw _
  · exact blind_throw _

/-- To take the reply of a call is blind to the number. -/
theorem blind_takeReply (pc : Nat) (kind : Option Kind) (reply : Reply) :
    Blind id (takeReply pc kind reply) := by
  have valued : Blind id (replyValue pc kind reply.value) := by
    unfold replyValue
    split
    · exact blind_pure _
    · exact blind_get (fun _ => rfl) fun _ => blind_lift _
    · exact blind_pure _
  have answered : Blind id (replyValue pc kind reply.value >>= push) :=
    blind_bind valued fun v => blind_push v
  unfold takeReply
  split
  · refine blind_get (fun _ => rfl) fun t => ?_
    split
    · exact blind_modify (fun _ => rfl) fun _ => answered
    · exact answered
  · exact answered

end Exec

/-! ## Steps in the world -/

variable {W Body : Type} (host : Host W Body) (table : HostTable Body)

/-- The outcome of a run for the thread under another number. -/
def renumberOutcome (id : UInt32) (r : Thread × α) : Thread × α :=
  (r.1.renumber id, r.2)

/-- Steps that are blind to the number do the same for a thread of another number. -/
theorem runExec_renumber {x : Exec α} (h : Exec.Blind id x) (t : Thread) :
    runExec (W := W) (t.renumber id) x = renumberOutcome id <$> runExec t x := by
  unfold runExec
  rw [h t]
  rcases x.run.run t with ⟨(e | f) | a, t'⟩ <;> rfl

/-- A host call does the same for a thread of another number. -/
theorem callHost_renumber (t : Thread) (pc : Nat) (kind : Option Kind) (index : UInt32) :
    callHost host table (t.renumber id) pc kind index
      = renumberOutcome id <$> callHost host table t pc kind index := by
  unfold callHost
  rw [runExec_renumber (Exec.blind_callArguments table pc index), bind_map_left, map_bind]
  refine bind_congr fun r => ?_
  obtain ⟨t', e | ⟨f, args⟩⟩ := r
  · rfl
  · change (host.call f.body args >>= _) = _ <$> (host.call f.body args >>= _)
    rw [map_bind]
    refine bind_congr fun answer => ?_
    cases answer with
    | error e => rfl
    | ok reply =>
      exact runExec_renumber
        (Exec.blind_bind (Exec.blind_takeReply pc kind reply) fun _ => Exec.blind_pure _) t'

/-- A step does the same under every number. -/
theorem step_renumber (t : Thread) :
    step host table (t.renumber id) = renumberOutcome id <$> step host table t := by
  unfold step
  by_cases hend : t.script.bytecode.size ≤ t.pc
  · have hend' : (t.renumber id).script.bytecode.size ≤ (t.renumber id).pc := hend
    rw [if_pos hend, if_pos hend']
    rfl
  have hend' : ¬ (t.renumber id).script.bytecode.size ≤ (t.renumber id).pc := hend
  rw [if_neg hend, if_neg hend']
  cases hdec : Instruction.decode t.script.bytecode t.pc with
  | error e =>
    have hdec' : Instruction.decode (t.renumber id).script.bytecode (t.renumber id).pc
        = .error e := hdec
    simp only [hdec']
    rfl
  | ok found =>
    obtain ⟨i, next⟩ := found
    have hdec' : Instruction.decode (t.renumber id).script.bytecode (t.renumber id).pc
        = .ok (i, next) := hdec
    simp only [hdec']
    cases i
    case callSysFunction kind index =>
      exact callHost_renumber host table { t with pc := next } t.pc kind index
    all_goals
      refine (bind_congr fun w => ?_).trans (map_bind _ _ _).symm
      exact runExec_renumber (Exec.blind_execute _ _ _) { t with pc := next }

/-- What remains of the world after an instruction of a thread, told of the thread under another
number: a failure is reported under that number. -/
inductive Retold (host : Host W Body) (id : UInt32) (t : Thread) : W → W → Prop where
  | same {w} : (∀ e, t.status ≠ .failed e) → Retold host id t w w
  | report {w e} : t.status = .failed e →
      Retold host id t (host.report (t.failureMessage e) w)
        (host.report ((t.renumber id).failureMessage e) w)

/-- Running an instruction of a thread that has not failed does the same under every number. -/
theorem advance_renumber (id : UInt32) {t t' : Thread} {going : Bool} {w w' : W}
    (hstatus : t.status = .ready)
    (h : advance host table t w = .ok (t', going) w') :
    ∃ v, advance host table (t.renumber id) w = .ok (t'.renumber id, going) v ∧
      Retold host id t' w' v := by
  obtain ⟨⟨t₁, r⟩, w₁, hstep, hrest⟩ := bind_ok h
  have hstep' : step host table (t.renumber id) w = .ok (t₁.renumber id, r) w₁ := by
    rw [step_renumber]
    change EStateM.map _ _ w = _
    unfold EStateM.map
    rw [hstep]
    rfl
  have kept : t₁.status = .ready := (step_status hstep).trans hstatus
  unfold advance
  rw [bind_of_ok hstep']
  cases r with
  | error e =>
    cases hrest
    exact ⟨_, rfl, .report rfl⟩
  | ok flow =>
    cases flow with
    | proceed =>
      cases hrest
      exact ⟨_, rfl, .same fun e he => by rw [kept] at he; cases he⟩
    | yield | wait | finish =>
      cases hrest
      exact ⟨_, rfl, .same fun e he => by cases he⟩

end Thread

namespace Moment

variable {W Body : Type}

/-- The same moment of the thread under another number. -/
def renumber (id : UInt32) (m : Moment W Body) : Moment W Body :=
  { m with thread := m.thread.renumber id }

end Moment

end SheepScene
