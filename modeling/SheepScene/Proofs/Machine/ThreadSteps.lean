import SheepScene.Machine.Thread

/-!
# What the steps of a thread leave alone

Steps of a thread on its own are opened one `bind` at a time (`Exec.run_bind`). Most instructions
touch the stack and the variables only, whether they complete or stop, and fail only for their
operands; such steps respect every relation between threads and every set of errors that allow for
that (`Exec.Frame`, `respects_execute`). Jumps respect those that also allow for another position
(`Exec.JumpFrame`). The two instructions of wait blocks and the answer of a host call are described
by what they do to the blocks.
-/

set_option autoImplicit false

namespace SheepScene

/-! ## Errors of operands -/

/-- The error of two operations in turn is that of one of them. -/
theorem error_of_bind {ε α β : Type} {x : Except ε α} {f : α → Except ε β} {e : ε}
    (h : x >>= f = .error e) : x = .error e ∨ ∃ a, x = .ok a ∧ f a = .error e := by
  cases x with
  | error e' =>
    cases h
    exact .inl rfl
  | ok a => exact .inr ⟨a, rfl, h⟩

/-- Whether an error says that the code itself is not in order: a byte that is no opcode, an
instruction cut short, a jump out of the code. -/
def ScriptError.derails : ScriptError → Bool
  | .unknownOpcode .. | .truncatedInstruction _ | .invalidJump .. => true
  | _ => false

namespace Value

/-- Reading a value as a text never fails with an error of derailed code. -/
theorem derails_toText {table : Array String} {pc : Nat} {v : Value} {e : ScriptError}
    (h : v.toText table pc = .error e) : e.derails = false := by
  unfold toText at h
  split at h
  · cases h
  · split at h <;> cases h
    rfl
  · cases h
  · cases h

/-- Coercing a value to a kind never fails with an error of derailed code. -/
theorem derails_coerce {table : Array String} {pc : Nat} {operation : String} {kind : Kind}
    {v : Value} {e : ScriptError} (h : v.coerce table pc operation kind = .error e) :
    e.derails = false := by
  unfold coerce at h
  split at h
  · split at h <;> cases h
    rfl
  · split at h <;> cases h
    rfl
  · split at h
    · cases htext : v.toText table pc with
      | ok s =>
        rw [htext] at h
        cases h
      | error e' =>
        rw [htext] at h
        cases h
        exact derails_toText htext
    · cases h
      rfl

/-- Coercing a row of values never fails with an error of derailed code. -/
theorem derails_coerceAll {table : Array String} {pc : Nat} {operation : String}
    {values : List (Value × Kind)} {e : ScriptError}
    (h : (values.mapM fun (v, kind) => v.coerce table pc operation kind) = .error e) :
    e.derails = false := by
  induction values generalizing e with
  | nil => cases h
  | cons first rest ih =>
    rw [List.mapM_cons] at h
    rcases error_of_bind h with hfirst | ⟨v, -, h⟩
    · exact derails_coerce hfirst
    · rcases error_of_bind h with hrest | ⟨values, -, h⟩
      · exact ih hrest
      · cases h

end Value

namespace BinaryOp

/-- An operation on two integers never fails with an error of derailed code. -/
theorem derails_onInts {op : BinaryOp} {pc : Nat} {x y : Int32} {e : ScriptError}
    (h : op.onInts pc x y = .error e) : e.derails = false := by
  unfold onInts at h
  split at h <;> try cases h
  split at h <;> cases h
  rfl

/-- An operation on two strings never fails with an error of derailed code. -/
theorem derails_onStrings {op : BinaryOp} {table : Array String} {pc : Nat} {a b : Value}
    {e : ScriptError} (h : op.onStrings table pc a b = .error e) : e.derails = false := by
  have joined : ∀ {f : String → String → Value},
      (do return f (← a.toText table pc) (← b.toText table pc) : Except ScriptError Value)
        = .error e → e.derails = false := by
    intro f h
    rcases error_of_bind h with ha | ⟨s, -, h⟩
    · exact Value.derails_toText ha
    · rcases error_of_bind h with hb | ⟨s', -, h⟩
      · exact Value.derails_toText hb
      · cases h
  unfold onStrings at h
  split at h
  · exact joined h
  · split at h
    · exact joined h
    · cases h
      rfl

/-- No binary operation fails with an error of derailed code. -/
theorem derails_apply {op : BinaryOp} {flavour : Numeric} {table : Array String} {pc : Nat}
    {a b : Value} {e : ScriptError} (h : op.apply flavour table pc a b = .error e) :
    e.derails = false := by
  unfold apply at h
  split at h
  · split at h
    · exact derails_onInts h
    · cases h
  · cases h
  · cases h
  · cases h
  · exact derails_onStrings h

end BinaryOp

namespace Thread

/-- A negation never fails with an error of derailed code. -/
theorem derails_negated {pc : Nat} {flavour : Numeric} {v : Value} {e : ScriptError}
    (h : negated pc flavour v = .error e) : e.derails = false := by
  unfold negated at h
  split at h <;> cases h
  rfl

variable {α β : Type}

namespace Exec

/-! ## Running steps -/

/-- Steps run in turn; a stop ends them. -/
theorem run_bind (x : Exec α) (f : α → Exec β) (t : Thread) :
    (x >>= f).run.run t = match x.run.run t with
      | (.ok a, t') => (f a).run.run t'
      | (.error e, t') => (.error e, t') := by
  change (ExceptT.bind x f).run.run t = _
  unfold ExceptT.bind ExceptT.bindCont
  simp only [ExceptT.run, ExceptT.mk, bind, StateT.bind, StateT.run, pure]
  rcases x t with ⟨_ | _, _⟩ <;> rfl

/-- A program that returns leaves the thread alone. -/
@[simp] theorem run_pure (a : α) (t : Thread) : (pure a : Exec α).run.run t = (.ok a, t) :=
  rfl

/-- A program that throws leaves the thread alone. -/
@[simp] theorem run_throw (e : Stop) (t : Thread) :
    (throw e : Exec α).run.run t = (.error e, t) :=
  rfl

/-- Reading the thread returns it and leaves it alone. -/
@[simp] theorem run_get (t : Thread) : (get : Exec Thread).run.run t = (.ok t, t) :=
  rfl

/-- Changing the thread changes it as told. -/
@[simp] theorem run_modify (f : Thread → Thread) (t : Thread) :
    (modify f : Exec Unit).run.run t = (.ok (), f t) :=
  rfl

/-! ## Steps that respect a relation -/

/-- A relation between threads that does not look at the stack or at the values of variables, and a
set of errors to which those of operands belong. -/
structure Frame (R : Thread → Thread → Prop) (E : ScriptError → Prop) : Prop where
  refl : ∀ t, R t t
  trans : ∀ {a b c}, R a b → R b c → R a c
  stack : ∀ t stack, R t { t with stack }
  vars : ∀ t i v, R t { t with vars := t.vars.setIfInBounds i v }
  error : ∀ {e : ScriptError}, e.derails = false → E e

/-- The relation does not look at the program counter either, and a jump may fail. -/
structure JumpFrame (R : Thread → Thread → Prop) (E : ScriptError → Prop) : Prop
    extends Frame R E where
  pc : ∀ t pc, R t { t with pc }
  invalidJump : ∀ pc target, E (.invalidJump pc target)

/-- Steps that relate every thread to what becomes of it, also where they stop, whose answer is as
`V` says, and whose errors are among `E`. -/
structure Respects (R : Thread → Thread → Prop) (E : ScriptError → Prop) (x : Exec α)
    (V : α → Prop) : Prop where
  thread : ∀ t, R t (x.run.run t).2
  answer : ∀ {t a}, (x.run.run t).1 = .ok a → V a
  error : ∀ {t e}, (x.run.run t).1 = .error (.error e) → E e

variable {R : Thread → Thread → Prop} {E : ScriptError → Prop} (frame : Frame R E)

include frame in
/-- Steps in turn. -/
theorem respects_bind {x : Exec α} {f : α → Exec β} {V : α → Prop} {V' : β → Prop}
    (hx : Respects R E x V) (hf : ∀ a, V a → Respects R E (f a) V') :
    Respects R E (x >>= f) V' := by
  have outcome : ∀ t, (∃ e, x.run.run t = (.error e, (x.run.run t).2) ∧
      (x >>= f).run.run t = (.error e, (x.run.run t).2)) ∨
      ∃ a, V a ∧ (x >>= f).run.run t = (f a).run.run (x.run.run t).2 := by
    intro t
    rw [run_bind]
    rcases hrun : x.run.run t with ⟨e | a, t'⟩
    · exact .inl ⟨e, rfl, rfl⟩
    · exact .inr ⟨a, hx.answer (congrArg Prod.fst hrun), rfl⟩
  refine ⟨fun t => ?_, fun {t b} h => ?_, fun {t e} h => ?_⟩
  · rcases outcome t with ⟨e, -, hbind⟩ | ⟨a, ha, hbind⟩
    · rw [hbind]
      exact hx.thread t
    · rw [hbind]
      exact frame.trans (hx.thread t) ((hf a ha).thread _)
  · rcases outcome t with ⟨e, -, hbind⟩ | ⟨a, ha, hbind⟩
    · rw [hbind] at h
      cases h
    · rw [hbind] at h
      exact (hf a ha).answer h
  · rcases outcome t with ⟨e', hstop, hbind⟩ | ⟨a, ha, hbind⟩
    · rw [hbind] at h
      cases h
      exact hx.error (congrArg Prod.fst hstop)
    · rw [hbind] at h
      exact (hf a ha).error h

include frame in
/-- No step. -/
theorem respects_pure {V : α → Prop} {a : α} (h : V a) : Respects R E (pure a) V :=
  ⟨frame.refl, fun ha => (by cases ha; exact h), fun he => by cases he⟩

include frame in
/-- An error. -/
theorem respects_throw {V : α → Prop} {e : ScriptError} (h : E e) :
    Respects R E (throw (.error e) : Exec α) V :=
  ⟨frame.refl, fun ha => (by cases ha), fun he => by cases he; exact h⟩

include frame in
/-- A look at the thread. -/
theorem respects_get : Respects R E (get : Exec Thread) fun _ => True :=
  ⟨frame.refl, fun _ => trivial, fun he => by cases he⟩

/-- A change of the thread. -/
theorem respects_modify {f : Thread → Thread} (h : ∀ t, R t (f t)) :
    Respects R E (modify f : Exec Unit) fun _ => True :=
  ⟨h, fun _ => trivial, fun he => by cases he⟩

include frame in
/-- An operation that needs no thread. -/
theorem respects_lift {x : Except ScriptError α} (h : ∀ e, x = .error e → e.derails = false) :
    Respects R E (lift x) fun _ => True := by
  cases x with
  | ok a => exact respects_pure frame trivial
  | error e => exact respects_throw frame (frame.error (h e rfl))

include frame in
/-- An operation on a stack. -/
theorem respects_liftStack (x : Except Fault α) : Respects R E (liftStack x) fun _ => True := by
  cases x with
  | ok a => exact respects_pure frame trivial
  | error e => exact ⟨frame.refl, fun _ => trivial, fun he => by cases he⟩

include frame in
/-- A conversion of a value. -/
theorem respects_coerce (table : Array String) (pc : Nat) (operation : String) (kind : Kind)
    (v : Value) : Respects R E (lift (v.coerce table pc operation kind)) fun _ => True :=
  respects_lift frame fun _ => Value.derails_coerce

include frame in
/-- A value as a number. -/
theorem respects_number (pc : Nat) (operation : String) (convert : Value → Option α) (v : Value) :
    Respects R E (number pc operation convert v) fun _ => True := by
  unfold number
  split
  · exact respects_pure frame trivial
  · exact respects_throw frame (frame.error rfl)

include frame in
/-- A push. -/
theorem respects_push (v : Value) : Respects R E (push v) fun _ => True := by
  refine respects_bind frame (respects_get frame) fun t _ => ?_
  refine respects_bind frame (respects_liftStack frame _) fun stack _ => ?_
  exact respects_modify fun t => frame.stack t stack

include frame in
/-- A pop. -/
theorem respects_pop : Respects R E pop fun _ => True := by
  refine respects_bind frame (respects_get frame) fun t _ => ?_
  refine respects_bind frame (respects_liftStack frame _) fun r _ => ?_
  refine respects_bind frame (respects_modify fun t => frame.stack t r.2) fun _ _ => ?_
  exact respects_pure frame trivial

/-- A jump. -/
theorem respects_jump (frame : JumpFrame R E) (pc : Nat) (target : UInt32) :
    Respects R E (jump pc target) fun _ => True := by
  refine respects_bind frame.toFrame (respects_get frame.toFrame) fun t _ => ?_
  split
  · exact respects_bind frame.toFrame
      (respects_throw (V := fun _ => True) frame.toFrame (frame.invalidJump _ _)) fun _ _ =>
        respects_modify fun t => frame.pc t _
  · exact respects_modify fun t => frame.pc t _

include frame in
/-- A push is followed by going on. -/
theorem respects_pushProceed (v : Value) :
    Respects R E (do push v; return Flow.proceed) fun flow => flow ≠ .wait :=
  respects_bind frame (respects_push frame v) fun _ _ => respects_pure frame (by simp)

include frame in
/-- An instruction other than those of wait blocks and host calls respects every frame that its jump
respects, if it has one, and does not make the thread wait. -/
theorem respects_executeWith (isComplete : WaitHandle → Bool) (pc : Nat) {i : Instruction}
    (hbegin : i ≠ .beginWait) (hend : i ≠ .endWait)
    (hjump : ∀ target, i.target? = some target → Respects R E (jump pc target) fun _ => True) :
    Respects R E (execute isComplete pc i) fun flow => flow ≠ .wait := by
  have pop2 : ∀ {f : Value → Value → Exec Flow},
      (∀ a b, Respects R E (f a b) fun flow => flow ≠ .wait) →
      Respects R E (do let b ← pop; let a ← pop; f a b) fun flow => flow ≠ .wait := by
    intro f hf
    refine respects_bind frame (respects_pop frame) fun b _ => ?_
    exact respects_bind frame (respects_pop frame) fun a _ => hf a b
  unfold execute
  refine respects_bind frame (respects_get frame) fun t _ => ?_
  cases i with
  | beginWait => exact absurd rfl hbegin
  | endWait => exact absurd rfl hend
  | sitnSpin | debugBreakpoint | callSysFunction | yield | returnV =>
    exact respects_pure frame (by simp)
  | branch target | branchGoto target =>
    have jumps := hjump target rfl
    exact respects_bind frame jumps fun _ _ => respects_pure frame (by simp)
  | branchIfZero target =>
    have jumps := hjump target rfl
    refine respects_bind frame (respects_pop frame) fun v _ => ?_
    dsimp only
    split
    · exact respects_bind frame jumps fun _ _ => respects_pure frame (by simp)
    · exact respects_pure frame (by simp)
  | store kind index =>
    refine respects_bind frame (respects_pop frame) fun v _ => ?_
    refine respects_bind frame (respects_coerce frame _ _ _ _ _) fun v _ => ?_
    refine respects_bind frame (respects_get frame) fun t _ => ?_
    split
    · exact respects_bind frame
        (respects_throw (V := fun _ => True) frame (frame.error rfl)) fun _ _ =>
          respects_bind frame (respects_modify fun t => frame.vars t _ _) fun _ _ =>
            respects_pure frame (by simp)
    · refine respects_bind frame (respects_modify fun t => frame.vars t _ _) fun _ _ => ?_
      exact respects_pure frame (by simp)
  | load kind index =>
    refine respects_bind frame (respects_get frame) fun t _ => ?_
    split
    · exact respects_throw frame (frame.error rfl)
    · refine respects_bind frame (respects_coerce frame _ _ _ _ _) fun v _ => ?_
      exact respects_pushProceed frame v
  | pushI | pushF | pushS => exact respects_pushProceed frame _
  | pop count =>
    refine respects_bind frame (respects_get frame) fun t _ => ?_
    refine respects_bind frame (respects_liftStack frame _) fun stack _ => ?_
    refine respects_bind frame (respects_modify fun t => frame.stack t stack) fun _ _ => ?_
    exact respects_pure frame (by simp)
  | binary op flavour =>
    refine pop2 fun a b => ?_
    refine respects_bind frame (respects_lift frame fun _ => BinaryOp.derails_apply) fun v _ => ?_
    exact respects_pushProceed frame v
  | negate flavour =>
    refine respects_bind frame (respects_pop frame) fun v _ => ?_
    refine respects_bind frame (respects_lift frame fun _ => derails_negated) fun v _ => ?_
    exact respects_pushProceed frame v
  | iToF | fToI =>
    refine respects_bind frame (respects_pop frame) fun v _ => ?_
    refine respects_bind frame (respects_number frame _ _ _ _) fun n _ => ?_
    exact respects_pushProceed frame _
  | modulo =>
    refine pop2 fun a b => ?_
    refine respects_bind frame (respects_number frame _ _ _ _) fun y _ => ?_
    refine respects_bind frame (respects_number frame _ _ _ _) fun x _ => ?_
    dsimp only
    split
    · exact respects_bind frame
        (respects_throw (V := fun _ => True) frame (frame.error rfl)) fun _ _ =>
          respects_pushProceed frame _
    · exact respects_pushProceed frame _
  | and | or => exact pop2 fun a b => respects_pushProceed frame _
  | not =>
    refine respects_bind frame (respects_pop frame) fun v _ => ?_
    exact respects_pushProceed frame _
  | getString =>
    refine respects_bind frame (respects_pop frame) fun v _ => ?_
    refine respects_bind frame (respects_coerce frame _ _ _ _ _) fun v _ => ?_
    exact respects_pushProceed frame v

include frame in
/-- If it has a jump, it respects every frame that allows for jumps. -/
theorem respects_execute (isComplete : WaitHandle → Bool) (pc : Nat) {i : Instruction}
    (hbegin : i ≠ .beginWait) (hend : i ≠ .endWait) (hjump : i.target? ≠ none → JumpFrame R E) :
    Respects R E (execute isComplete pc i) fun flow => flow ≠ .wait := by
  refine respects_executeWith frame isComplete pc hbegin hend fun target htarget => ?_
  exact respects_jump (hjump (by simp [htarget])) pc target

include frame in
/-- Finding a host function and its arguments respects every frame. -/
theorem respects_callArguments {Body : Type} (table : HostTable Body) (pc : Nat) (index : UInt32) :
    Respects R E (callArguments table pc index) fun found => found.1 ∈ table.functions := by
  unfold callArguments
  refine respects_bind frame (respects_get frame) fun t _ => ?_
  dsimp only
  split
  · split
    · rename_i f hf
      have hmem : f ∈ table.functions := Array.mem_of_find?_eq_some hf
      refine respects_bind frame (respects_pop frame) fun v _ => ?_
      cases v with
      | int count =>
        refine respects_bind frame (respects_get frame) fun t' _ => ?_
        have taken : Respects R E (do
            modify fun t => { t with stack := t'.stack.without f.args.length }
            let args ← lift (((t'.stack.topmost f.args.length).zip f.args).mapM
              fun (v, kind) => v.coerce t.script.strings pc "CallSysFunction" kind)
            return (f, args)) fun found => found.1 ∈ table.functions := by
          refine respects_bind frame (respects_modify fun t => frame.stack t _) fun _ _ => ?_
          refine respects_bind frame (respects_lift frame fun _ => Value.derails_coerceAll)
            fun args _ => ?_
          exact respects_pure frame hmem
        split
        · exact respects_bind frame
            (respects_throw (V := fun _ => True) frame (frame.error rfl)) fun _ _ => taken
        · exact taken
      | float x | string s | offset i => exact respects_throw frame (frame.error rfl)
    · exact respects_throw frame (frame.error rfl)
  · exact respects_throw frame (frame.error rfl)

include frame in
/-- Turning a reply into the value to push keeps every frame. -/
theorem respects_replyValue (pc : Nat) (kind : Option Kind) (value : Option Value) :
    Respects R E (replyValue pc kind value) fun _ => True := by
  unfold replyValue
  split
  · exact respects_pure frame trivial
  · refine respects_bind frame (respects_get frame) fun t _ => ?_
    exact respects_coerce frame _ _ _ _ _
  · exact respects_pure frame trivial

include frame in
/-- Taking an answer respects every frame in which handles may be collected. -/
theorem respects_takeReply (waits : ∀ t waits, R t { t with waits }) (pc : Nat)
    (kind : Option Kind) (reply : Reply) :
    Respects R E (takeReply pc kind reply) fun _ => True := by
  have answered : Respects R E (replyValue pc kind reply.value >>= push) fun _ => True :=
    respects_bind frame (respects_replyValue frame pc kind _) fun v _ => respects_push frame v
  unfold takeReply
  split
  · refine respects_bind frame (respects_get frame) fun t _ => ?_
    split
    · exact respects_bind frame (respects_modify fun t => waits t _) fun _ _ => answered
    · exact answered
  · exact answered

end Exec

/-- Steps of a thread that come to an end inside a run of the world: the world is left as it is, and
the outcome is that of the steps. -/
theorem runExec_ok {W : Type} {t : Thread} {steps : Exec α} {w w' : W}
    {r : Thread × Except ScriptError α} (h : runExec t steps w = .ok r w') :
    w' = w ∧ r.1 = (steps.run.run t).2 ∧ ∀ a, r.2 = .ok a → (steps.run.run t).1 = .ok a := by
  unfold runExec at h
  rcases hrun : steps.run.run t with ⟨(e | f) | a, t'⟩
  · rw [hrun] at h
    cases h
    exact ⟨rfl, rfl, fun a ha => by cases ha⟩
  · rw [hrun] at h
    cases h
  · rw [hrun] at h
    cases h
    exact ⟨rfl, rfl, fun b hb => by cases hb; rfl⟩

/-- The error of such steps is one of the thread. -/
theorem runExec_error {W : Type} {t : Thread} {steps : Exec α} {w w' : W}
    {r : Thread × Except ScriptError α} {e : ScriptError} (h : runExec t steps w = .ok r w')
    (he : r.2 = .error e) : (steps.run.run t).1 = .error (.error e) := by
  unfold runExec at h
  rcases hrun : steps.run.run t with ⟨(e | f) | a, t'⟩
  · rw [hrun] at h
    cases h
    cases he
    rfl
  · rw [hrun] at h
    cases h
  · rw [hrun] at h
    cases h
    cases he

/-! ## Wait blocks -/

/-- Threads of one script in the same wait blocks. -/
structure SameBlocks (t t' : Thread) : Prop where
  script : t'.script = t.script
  waitDepth : t'.waitDepth = t.waitDepth
  waits : t'.waits = t.waits

/-- Being in the same wait blocks looks neither at operands nor at the program counter. -/
theorem sameBlocks_jumpFrame : Exec.JumpFrame SameBlocks fun _ => True where
  refl _ := ⟨rfl, rfl, rfl⟩
  trans h h' :=
    ⟨h'.script.trans h.script, h'.waitDepth.trans h.waitDepth, h'.waits.trans h.waits⟩
  stack _ _ := ⟨rfl, rfl, rfl⟩
  vars _ _ _ := ⟨rfl, rfl, rfl⟩
  error _ := trivial
  pc _ _ := ⟨rfl, rfl, rfl⟩
  invalidJump _ _ := trivial

/-- Being in the same wait blocks looks neither at the stack nor at the values of variables. -/
theorem sameBlocks_frame : Exec.Frame SameBlocks fun _ => True :=
  sameBlocks_jumpFrame.toFrame

/-- What a thread collects from an answer: the handle, inside a wait block only. -/
def collected (t : Thread) (reply : Reply) : List WaitHandle :=
  if t.waitDepth = 0 then [] else reply.wait.toList

/-- Taking an answer collects its handle, whether the value can be pushed or not. -/
theorem takeReply_blocks (pc : Nat) (kind : Option Kind) (reply : Reply) (t : Thread) :
    SameBlocks { t with waits := t.waits ++ t.collected reply }
      ((takeReply pc kind reply).run.run t).2 := by
  have answered : Exec.Respects SameBlocks (fun _ => True)
      (replyValue pc kind reply.value >>= push) fun _ => True :=
    Exec.respects_bind sameBlocks_frame (Exec.respects_replyValue sameBlocks_frame pc kind _)
      fun v _ => Exec.respects_push sameBlocks_frame v
  unfold takeReply collected
  cases hwait : reply.wait with
  | none =>
    rw [Option.toList_none, ite_self, List.append_nil]
    exact answered.thread t
  | some handle =>
    simp only [Exec.run_bind, Exec.run_get]
    by_cases hdepth : t.waitDepth = 0
    · rw [if_pos hdepth, if_neg (by simpa using hdepth), List.append_nil]
      exact answered.thread t
    · simp only [ne_eq, hdepth, not_false_eq_true, if_true, if_false, Exec.run_bind,
        Exec.run_modify, Option.toList_some]
      have pushed := answered.thread { t with waits := t.waits ++ [handle] }
      rw [Exec.run_bind] at pushed
      exact pushed

/-- Opening a wait block. -/
theorem execute_beginWait (isComplete : WaitHandle → Bool) (pc : Nat) (t : Thread) :
    (execute isComplete pc .beginWait).run.run t
      = (.ok .proceed, { t with waitDepth := t.waitDepth + 1 }) :=
  rfl

/-- Closing a wait block; the outermost one waits for what has been collected. -/
theorem execute_endWait (isComplete : WaitHandle → Bool) (pc : Nat) (t : Thread) :
    (execute isComplete pc .endWait).run.run t =
      let depth := if t.waitDepth = 0 then 0 else t.waitDepth - 1
      if depth = 0 then
        let waits := pending isComplete t.waits
        (.ok (if waits.isEmpty then .proceed else .wait), { t with waitDepth := 0, waits })
      else (.ok .proceed, { t with waitDepth := depth }) := by
  unfold execute
  simp only [Exec.run_bind, Exec.run_get, Exec.run_modify]
  by_cases hdepth : (if t.waitDepth = 0 then 0 else t.waitDepth - 1) = 0
  · rw [if_pos hdepth, if_pos hdepth]
    simp only [Exec.run_bind, Exec.run_get, Exec.run_modify, hdepth]
    cases (pending isComplete t.waits).isEmpty <;> rfl
  · rw [if_neg hdepth, if_neg hdepth]
    rfl

end Thread

end SheepScene
