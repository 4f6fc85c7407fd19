import SheepScene.Machine.Host
import SheepScene.Machine.Operator
import SheepScene.Machine.Stack
import SheepScene.Sheep.Encoding
import SheepScene.Sheep.Script

/-!
# Threads

A thread runs one function of a script on its own stack, with its own variables. `Thread.execute`
says what each instruction does to the thread alone; only `Thread.callHost` touches the world.
`Thread.step` runs the instruction at the program counter, and `Thread.run` steps until the thread
yields, waits, ends, or has used up a budget of instructions.
-/

set_option autoImplicit false

namespace SheepScene

/-- What a thread is doing between two runs. -/
inductive ThreadStatus where
  | ready
  /-- Waiting for the handles collected in a wait block. -/
  | waiting
  | finished
  | failed (e : ScriptError)
  deriving DecidableEq

/-- The capacity of a thread's stack. -/
abbrev stackCapacity : Nat := 1024

/-- A thread of execution. -/
structure Thread where
  id : UInt32
  script : Script
  function : String
  pc : Nat
  stack : Stack stackCapacity
  vars : Array Value
  status : ThreadStatus
  /-- How many wait blocks are open. -/
  waitDepth : UInt32
  /-- What the open wait blocks have collected to wait for. -/
  waits : List WaitHandle

/-- How execution goes on after an instruction. -/
inductive Flow where
  | proceed
  | yield
  | wait
  | finish
  deriving DecidableEq, Repr

/-- Why an instruction does not complete. -/
inductive Stop where
  /-- An error of the script, which ends the thread. -/
  | error (e : ScriptError)
  /-- A fault, which ends the run. -/
  | fault (f : Fault)

namespace Thread

/-- Steps of a thread on its own; what was done before a stop stays done. -/
abbrev Exec : Type → Type :=
  ExceptT Stop (StateM Thread)

/-- A thread at the start of a function. -/
def start (id : UInt32) (script : Script) (function : String) : Except ScriptError Thread :=
  match script.functionOffset? function with
  | none => .error (.unknownFunction function)
  | some offset =>
    .ok {
      id, script, function
      pc := offset.toNat
      stack := .empty
      vars := script.vars.map (·.initial)
      status := .ready
      waitDepth := 0
      waits := [] }

/-- Whether a thread has ended. -/
def isDone (t : Thread) : Bool :=
  match t.status with
  | .finished | .failed _ => true
  | .ready | .waiting => false

/-- The error of a failed thread. -/
def error? (t : Thread) : Option ScriptError :=
  match t.status with
  | .failed e => some e
  | _ => none

/-- The value of the first variable of a name, in any case. -/
def valueOf? (t : Thread) (name : String) : Option Value :=
  (t.script.variableIndex? name).bind (t.vars[·]?)

/-- The value that a finished thread leaves on top of its stack, or zero. -/
def result (t : Thread) : Value :=
  t.stack.top?.getD (.int 0)

/-- Gives up waiting: the thread is ready and has nothing to wait for. -/
def releaseWaits (t : Thread) : Thread :=
  { t with waits := [], status := .ready }

/-! ## Instructions -/

/-- The answer of an operation, or the end of the thread. -/
def lift {α : Type} : Except ScriptError α → Exec α
  | .ok a => pure a
  | .error e => throw (.error e)

/-- The answer of a stack operation, or the end of the run. -/
def liftStack {α : Type} : Except Fault α → Exec α
  | .ok a => pure a
  | .error f => throw (.fault f)

/-- Pushes a value. -/
def push (v : Value) : Exec Unit := do
  let stack ← liftStack ((← get).stack.push v)
  modify fun t => { t with stack }

/-- Pops a value. -/
def pop : Exec Value := do
  let (v, stack) ← liftStack (← get).stack.pop
  modify fun t => { t with stack }
  return v

/-- Moves the program counter; the end of the code is a valid target. -/
def jump (pc : Nat) (target : UInt32) : Exec Unit := do
  if (← get).script.bytecode.size < target.toNat then
    throw (.error (.invalidJump pc target))
  modify fun t => { t with pc := target.toNat }

/-- A value as a number, or the end of the thread. -/
def number {α : Type} (pc : Nat) (operation : String) (convert : Value → Option α) (v : Value) :
    Exec α :=
  match convert v with
  | some n => pure n
  | none => throw (.error (v.mismatch pc operation))

/-- Negation: an integer stays one unless the flavour is for floats. -/
def negated (pc : Nat) (flavour : Numeric) (v : Value) : Except ScriptError Value :=
  match v, flavour with
  | .int n, .int => .ok (.int (-n))
  | .int n, .float => .ok (.float (-Binary32.ofInt32 n))
  | .float x, _ => .ok (.float (-x))
  | v, _ => .error (v.mismatch pc "Negate")

/-- The handles that are not complete yet. -/
def pending (isComplete : WaitHandle → Bool) (waits : List WaitHandle) : List WaitHandle :=
  waits.filter fun w => !isComplete w

/-- What an instruction other than a host call does; `pc` is where it stands. -/
def execute (isComplete : WaitHandle → Bool) (pc : Nat) (i : Instruction) : Exec Flow := do
  let strings := (← get).script.strings
  match i with
  | .sitnSpin | .debugBreakpoint | .callSysFunction .. => return .proceed
  | .yield => return .yield
  | .branch target | .branchGoto target => jump pc target; return .proceed
  | .branchIfZero target =>
    let v ← pop
    if !v.isTrue strings then jump pc target
    return .proceed
  | .beginWait => modify fun t => { t with waitDepth := t.waitDepth + 1 }; return .proceed
  | .endWait =>
    modify fun t => { t with waitDepth := if t.waitDepth = 0 then 0 else t.waitDepth - 1 }
    if (← get).waitDepth = 0 then
      modify fun t => { t with waits := pending isComplete t.waits }
      if !(← get).waits.isEmpty then return .wait
    return .proceed
  | .returnV => return .finish
  | .store kind index =>
    let v ← lift ((← pop).coerce strings pc "Store" kind)
    if (← get).vars.size ≤ index.toNat then throw (.error (.badVariable pc index))
    modify fun t => { t with vars := t.vars.setIfInBounds index.toNat v }
    return .proceed
  | .load kind index =>
    match (← get).vars[index.toNat]? with
    | none => throw (.error (.badVariable pc index))
    | some v => push (← lift (v.coerce strings pc "Load" kind)); return .proceed
  | .pushI n => push (.int n); return .proceed
  | .pushF bits => push (.float (Float32.ofBits bits)); return .proceed
  | .pushS offset => push (.offset offset); return .proceed
  | .pop count =>
    let stack ← liftStack ((← get).stack.drop count.toNat)
    modify fun t => { t with stack }
    return .proceed
  | .binary op flavour =>
    let b ← pop
    let a ← pop
    push (← lift (op.apply flavour strings pc a b))
    return .proceed
  | .negate flavour =>
    let v ← pop
    push (← lift (negated pc flavour v))
    return .proceed
  | .iToF => push (.float (← number pc "IToF" Value.toFloat? (← pop))); return .proceed
  | .fToI => push (.int (← number pc "FToI" Value.toInt? (← pop))); return .proceed
  | .modulo =>
    let b ← pop
    let a ← pop
    let y ← number pc "Modulo" Value.toInt? b
    let x ← number pc "Modulo" Value.toInt? a
    if y = 0 then throw (.error (.divideByZero pc))
    push (.int (x % y))
    return .proceed
  | .and =>
    let b ← pop
    let a ← pop
    push (.ofBool (a.isTrue strings && b.isTrue strings))
    return .proceed
  | .or =>
    let b ← pop
    let a ← pop
    push (.ofBool (a.isTrue strings || b.isTrue strings))
    return .proceed
  | .not =>
    let a ← pop
    push (.ofBool (!a.isTrue strings))
    return .proceed
  | .getString => push (← lift ((← pop).coerce strings pc "GetString" .string)); return .proceed

/-! ## Host calls -/

/-- Finds the host function of an import and takes its arguments off the stack, each converted to
the declared kind. The count on top of the stack has to be the count of declared arguments. -/
def callArguments {Body : Type} (table : HostTable Body) (pc : Nat) (index : UInt32) :
    Exec (HostFunction Body × List Value) := do
  let script := (← get).script
  let some imported := script.imports[index.toNat]? | throw (.error (.badImport pc index))
  let some f := table.find? imported.name
    | throw (.error (.unknownHostFunction imported.name))
  match ← pop with
  | .int count =>
    let stack := (← get).stack
    if count < 0 ∨ count.toInt.toNat ≠ f.args.length ∨ stack.size < count.toInt.toNat then
      throw (.error (.argumentCount f.name f.args.length count))
    let args := stack.topmost f.args.length
    modify fun t => { t with stack := stack.without f.args.length }
    let args ← lift ((args.zip f.args).mapM fun (v, kind) =>
      v.coerce script.strings pc "CallSysFunction" kind)
    return (f, args)
  | other => throw (.error (other.mismatch pc "CallSysFunction"))

/-- The value that an answer comes to, of the kind that the call asks for. -/
def replyValue (pc : Nat) (kind : Option Kind) (value : Option Value) : Exec Value := do
  match kind, value with
  | none, _ => return .int 0
  | some kind, some v => lift (v.coerce (← get).script.strings pc "CallSysFunction" kind)
  | some kind, none => return .default kind

/-- Takes the answer of a host function: a handle is collected inside a wait block only, and a
value is pushed in any case. -/
def takeReply (pc : Nat) (kind : Option Kind) (reply : Reply) : Exec Unit := do
  if let some handle := reply.wait then
    if (← get).waitDepth ≠ 0 then
      modify fun t => { t with waits := t.waits ++ [handle] }
  push (← replyValue pc kind reply.value)

section World

variable {W Body : Type} (host : Host W Body) (table : HostTable Body)

/-- The outcome of a step: the thread after it, and how it goes on or why it fails. -/
abbrev Outcome : Type :=
  Thread × Except ScriptError Flow

/-- Runs steps of the thread alone; a fault becomes one of the world's run. -/
def runExec {α : Type} (t : Thread) (steps : Exec α) :
    EStateM Fault W (Thread × Except ScriptError α) :=
  match steps.run.run t with
  | (.ok a, t) => pure (t, .ok a)
  | (.error (.error e), t) => pure (t, .error e)
  | (.error (.fault f), _) => throw f

/-- Calls a host function from the instruction at `pc`. -/
def callHost (t : Thread) (pc : Nat) (kind : Option Kind) (index : UInt32) :
    EStateM Fault W Outcome := do
  match ← runExec t (callArguments table pc index) with
  | (t, .error e) => return (t, .error e)
  | (t, .ok (f, args)) =>
    match ← host.call f.body args with
    | .error e => return (t, .error e)
    | .ok reply => runExec t (do takeReply pc kind reply; return .proceed)

/-- Runs the instruction at the program counter; at the end of the code the thread finishes. -/
def step (t : Thread) : EStateM Fault W Outcome := do
  if t.script.bytecode.size ≤ t.pc then return (t, .ok .finish)
  match Instruction.decode t.script.bytecode t.pc with
  | .error e => return (t, .error e)
  | .ok (i, next) =>
    let moved := { t with pc := next }
    match i with
    | .callSysFunction kind index => callHost host table moved t.pc kind index
    | i => runExec moved (execute (host.isComplete (← get)) t.pc i)

/-- The message that reports the failure of a thread. -/
def failureMessage (t : Thread) (e : ScriptError) : String :=
  s!"Sheep thread {t.id.toNat} ({t.script.name}:{t.function}) failed: {e.message}"

/-- Runs one instruction and settles the status; the flag tells whether the thread goes on. -/
def advance (t : Thread) : EStateM Fault W (Thread × Bool) := do
  match ← step host table t with
  | (t, .ok .proceed) => return (t, true)
  | (t, .ok .yield) => return ({ t with status := .ready }, false)
  | (t, .ok .wait) => return ({ t with status := .waiting }, false)
  | (t, .ok .finish) => return ({ t with status := .finished }, false)
  | (t, .error e) =>
    modify (host.report (t.failureMessage e))
    return ({ t with status := .failed e }, false)

/-- Runs at most `budget` instructions, and counts them on top of those `executed` before. A thread
that uses up the budget is ready to go on. -/
def runFor (budget executed : Nat) (t : Thread) : EStateM Fault W (Thread × Nat) :=
  match budget with
  | 0 => pure ({ t with status := .ready }, executed)
  | budget + 1 => do
    let (t, going) ← advance host table t
    if going then runFor budget (executed + 1) t else pure (t, executed + 1)

/-- Lets a thread run for at most `budget` instructions, and says how many it ran: none if it has
ended or still waits for something. -/
def run (budget : Nat) (t : Thread) : EStateM Fault W (Thread × Nat) := do
  match t.status with
  | .finished | .failed _ => return (t, 0)
  | .waiting =>
    let t := { t with waits := pending (host.isComplete (← get)) t.waits }
    if t.waits.isEmpty then runFor host table budget 0 t else return (t, 0)
  | .ready => runFor host table budget 0 t

/-- Runs a thread to its end at once, without waiting for anything, on at most `budget`
instructions; `none` if they do not suffice. -/
def runToEnd (budget : Nat) (t : Thread) :
    EStateM Fault W (Option (Except ScriptError Value)) :=
  match budget with
  | 0 => pure none
  | budget + 1 => do
    let (t, _) ← advance host table t
    match t.status with
    | .finished => pure (some (.ok t.result))
    | .failed e => pure (some (.error e))
    | .waiting => runToEnd budget t.releaseWaits
    | .ready => runToEnd budget t

end World

end Thread

end SheepScene
