import SheepScene.Scene.Components

/-!
# Probes

A probe is a component that writes every hook that reaches it into the journal, and asks things of
the scene on cue. With it the order of hooks can be watched, and scenes can be disturbed while they
are at work. A plain component does nothing.
-/

set_option autoImplicit false

namespace SheepScene

/-- An occasion on which a component acts, whatever the delta. -/
inductive HookName where
  | enable
  | disable
  | update
  | lateUpdate
  deriving DecidableEq, Repr

/-- The occasion of a hook. -/
def Hook.name {K : Type} : Hook K → HookName
  | .enable => .enable
  | .disable => .disable
  | .update _ => .update
  | .lateUpdate _ => .lateUpdate

/-- One thing that a probe asks of the scene. -/
inductive ProbeStep (K B : Type) where
  | perform (request : Request K B)
  /-- The answer is reported under the probe's tag. -/
  | echo (request : Request K B)

/-- What a probe does on an occasion, and how many times it still does so. The steps may refer to
the probe's own actor. -/
structure Cue (K B : Type) where
  occasion : HookName
  times : Nat
  steps : List (EntityId → ProbeStep K B)

/-- The components that scenes are examined with. -/
inductive Diagnostic (K : Type) where
  | plain
  /-- A probe on one of several channels; the probes of a channel are of one type. -/
  | probe (channel : Nat) (tag : String) (cues : List (Cue K (Diagnostic K)))

namespace Diagnostic

variable {K : Type}

/-- The name of a component's type. -/
def typeName : Diagnostic K → String
  | plain => "Plain"
  | probe channel .. => s!"Probe{channel}"

/-- Performs one step. -/
def takeStep (tag : String) : ProbeStep K (Diagnostic K) → Program K (Diagnostic K) Unit
  | .perform request => .perform request fun _ => .done ()
  | .echo request => .echo tag request fun _ => .done ()

/-- Performs steps in order. -/
def takeSteps (tag : String) (self : EntityId) :
    List (EntityId → ProbeStep K (Diagnostic K)) → Program K (Diagnostic K) Unit
  | [] => pure ()
  | step :: rest => do
    takeStep tag (step self)
    takeSteps tag self rest

/-- Follows the cues for an occasion, in order, and counts down how often they are still followed.
-/
def follow (tag : String) (self : EntityId) (occasion : HookName) :
    List (Cue K (Diagnostic K)) → Program K (Diagnostic K) (List (Cue K (Diagnostic K)))
  | [] => pure []
  | cue :: rest => do
    if cue.occasion = occasion ∧ cue.times ≠ 0 then
      takeSteps tag self cue.steps
      return { cue with times := cue.times - 1 } :: (← follow tag self occasion rest)
    else return cue :: (← follow tag self occasion rest)

/-- What a component does when a hook reaches it. -/
def react (d : Diagnostic K) (self : EntityId) (hook : Hook K) :
    Program K (Diagnostic K) (Diagnostic K) :=
  match d with
  | plain => pure plain
  | probe channel tag cues => do
    let () ← Program.edit (.probed tag hook)
    return probe channel tag (← follow tag self hook.name cues)

instance : Behavior K (Diagnostic K) where
  typeName := typeName
  react := react

end Diagnostic

end SheepScene
