import SheepScene.Machine.Thread

/-!
# The scheduler

A scheduler keeps the threads that have been started, in the order of their start, and gives each
of them a budget of instructions whenever it is updated. A thread that has ended can be inspected
until the next update begins.
-/

set_option autoImplicit false

namespace SheepScene

/-- The threads of a scene and the host functions they may call. -/
structure Scheduler (Body : Type) where
  table : HostTable Body
  threads : Array Thread
  /-- How many instructions a thread may run at a time. -/
  budget : UInt32
  /-- The number of the next thread. -/
  nextId : UInt32

namespace Scheduler

/-- The budget where none is set. -/
def defaultBudget : UInt32 := 100000

variable {Body : Type}

/-- A scheduler without threads. -/
def ofTable (table : HostTable Body) : Scheduler Body :=
  { table, threads := #[], budget := defaultBudget, nextId := 1 }

/-- Sets the budget, to one at least. -/
def withBudget (s : Scheduler Body) (budget : UInt32) : Scheduler Body :=
  { s with budget := if budget = 0 then 1 else budget }

/-- The thread of a number. -/
def thread? (s : Scheduler Body) (id : UInt32) : Option Thread :=
  s.threads.find? fun t => t.id == id

/-- Removes the thread of a number, and says whether there was one. -/
def stop (s : Scheduler Body) (id : UInt32) : Bool × Scheduler Body :=
  let threads := s.threads.filter fun t => t.id != id
  (threads.size != s.threads.size, { s with threads })

/-- How many threads have not ended. -/
def liveCount (s : Scheduler Body) : Nat :=
  s.threads.countP fun t => !t.isDone

/-- Whether every thread has ended. -/
def isIdle (s : Scheduler Body) : Bool :=
  s.liveCount == 0

section World

variable {W : Type} (host : Host W Body)

/-- Starts a function as a new thread and runs it for a first budget. -/
def start (s : Scheduler Body) (script : Script) (function : String) :
    EStateM Fault W (Except ScriptError UInt32 × Scheduler Body) := do
  match Thread.start s.nextId script function with
  | .error e => return (.error e, s)
  | .ok t =>
    let (t, _) ← t.run host s.table s.budget.toNat
    return (.ok t.id, { s with threads := s.threads.push t, nextId := s.nextId + 1 })

/-- The value of a function that is run to its end at once; waits are passed over. -/
def evaluate (s : Scheduler Body) (script : Script) (function : String) :
    EStateM Fault W (Except ScriptError Value) := do
  match Thread.start 0 script function with
  | .error e => return .error e
  | .ok t =>
    match ← t.runToEnd host s.table s.budget.toNat with
    | some outcome => return outcome
    | none => return .error (.budgetExceeded function s.budget)

/-- Runs threads one after the other. -/
def runAll (table : HostTable Body) (budget : Nat) :
    List Thread → EStateM Fault W (List Thread)
  | [] => pure []
  | t :: rest => do
    let (t, _) ← t.run host table budget
    return t :: (← runAll table budget rest)

/-- Forgets the threads that have ended, and runs the others in the order of their start. -/
def update (s : Scheduler Body) : EStateM Fault W (Scheduler Body) := do
  let threads ← runAll host s.table s.budget.toNat
    (s.threads.filter fun t => !t.isDone).toList
  return { s with threads := threads.toArray }

end World

end Scheduler

end SheepScene
