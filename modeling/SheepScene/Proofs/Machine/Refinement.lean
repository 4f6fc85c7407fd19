import SheepScene.Proofs.Machine.RunTriples

/-!
# Runs that come to the same end

A run refines another one if the other comes to the same end whenever the first ends well. Threads
that call the functions of one host refine the same threads on another host whose functions come to
the same end (`refines_update`).
-/

set_option autoImplicit false

namespace SheepScene

section Refines

variable {ε σ α β : Type}

/-- Whenever the first run ends well, the second comes to the same end. -/
def Refines (x y : EStateM ε σ α) : Prop :=
  ∀ s a s', x s = .ok a s' → y s = .ok a s'

/-- A run refines itself. -/
theorem refines_refl (x : EStateM ε σ α) : Refines x x :=
  fun _ _ _ h => h

/-- A run that ends in a fault refines every other one. -/
theorem refines_throw (e : ε) (y : EStateM ε σ α) : Refines (throw e) y :=
  fun _ _ _ => nofun

/-- Two runs in turn refine others when each does. -/
theorem refines_bind {x y : EStateM ε σ α} {f g : α → EStateM ε σ β} (first : Refines x y)
    (next : ∀ a, Refines (f a) (g a)) : Refines (x >>= f) (y >>= g) := by
  intro s b s' h
  obtain ⟨a, t, hx, hf⟩ := bind_ok h
  exact (bind_of_ok (first s a t hx)).trans (next a t b s' hf)

/-- Runs that begin alike. -/
theorem refines_after (x : EStateM ε σ α) {f g : α → EStateM ε σ β}
    (next : ∀ a, Refines (f a) (g a)) : Refines (x >>= f) (x >>= g) :=
  refines_bind (refines_refl x) next

/-- Runs for each item of a list refine others if the run for one item does. -/
theorem refines_forM {f g : α → EStateM ε σ Unit} (each : ∀ a, Refines (f a) (g a))
    (l : List α) : Refines (l.forM f) (l.forM g) := by
  induction l with
  | nil => exact refines_refl _
  | cons a l ih => exact refines_bind (each a) fun _ => ih

end Refines

section Machine

variable {W Body : Type} {host : Host W Body} {table : HostTable Body}
  {call : Body → List Value → EStateM Fault W (Except ScriptError Reply)}
  (calls : ∀ body args, Refines (host.call body args) (call body args))
include calls

/-- A host call on one host comes to the same end on the other. -/
theorem refines_callHost (t : Thread) (pc : Nat) (kind : Option Kind) (index : UInt32) :
    Refines (Thread.callHost host table t pc kind index)
      (Thread.callHost { host with call } table t pc kind index) := by
  refine refines_after _ fun r => ?_
  obtain ⟨t', e | ⟨f, args⟩⟩ := r
  · exact refines_refl _
  · exact refines_bind (calls f.body args) fun _ => refines_refl _

/-- A step on one host comes to the same end on the other. -/
theorem refines_step (t : Thread) :
    Refines (Thread.step host table t) (Thread.step { host with call } table t) := by
  unfold Thread.step
  split
  · exact refines_refl _
  · split
    · exact refines_refl _
    · split
      · exact refines_callHost calls _ _ _ _
      · exact refines_refl _

/-- An instruction on one host comes to the same end on the other. -/
theorem refines_advance (t : Thread) :
    Refines (Thread.advance host table t) (Thread.advance { host with call } table t) :=
  refines_bind (refines_step calls t) fun _ => refines_refl _

/-- A run within a budget on one host comes to the same end on the other. -/
theorem refines_runFor (budget executed : Nat) (t : Thread) :
    Refines (Thread.runFor host table budget executed t)
      (Thread.runFor { host with call } table budget executed t) := by
  induction budget generalizing executed t with
  | zero => exact refines_refl _
  | succ budget ih =>
    refine refines_bind (refines_advance calls t) fun r => ?_
    obtain ⟨t', going⟩ := r
    cases going with
    | true => exact ih (executed + 1) t'
    | false => exact refines_refl _

/-- A thread that is let run on one host comes to the same end on the other. -/
theorem refines_threadRun (budget : Nat) (t : Thread) :
    Refines (t.run host table budget) (t.run { host with call } table budget) := by
  unfold Thread.run
  split
  · exact refines_refl _
  · exact refines_refl _
  · refine refines_after _ fun w => ?_
    dsimp only
    split
    · exact refines_runFor calls _ _ _
    · exact refines_refl _
  · exact refines_runFor calls _ _ _

/-- Threads that run one after the other on one host come to the same end on the other. -/
theorem refines_runAll (budget : Nat) (threads : List Thread) :
    Refines (Scheduler.runAll host table budget threads)
      (Scheduler.runAll { host with call } table budget threads) := by
  induction threads with
  | nil => exact refines_refl _
  | cons t rest ih =>
    refine refines_bind (refines_threadRun calls budget t) fun r => ?_
    exact refines_bind ih fun _ => refines_refl _

/-- Updating a scheduler on one host comes to the same end on the other. -/
theorem refines_update (s : Scheduler Body) :
    Refines (s.update host) (s.update { host with call }) :=
  refines_bind (refines_runAll calls _ _) fun _ => refines_refl _

end Machine

end SheepScene
