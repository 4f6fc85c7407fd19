import SheepScene.Proofs.Scene.Serving
import SheepScene.Proofs.Scene.Stages

/-!
# Hooks and observers that come to an end

A run may end in a fault when components go on telling one another for ever. A program that runs no
component cannot do so: it comes to an end whatever the answers are, with everything that its edits
keep (`Program.exists_run`). So does a component that is sent a hook which it serves by such a
program (`SceneM.exists_hook`), and an event that is observed by one (`SceneM.exists_emit`).
-/

set_option autoImplicit false

namespace SheepScene

variable {K B : Type} [Scalar K] [Behavior K B]

open World

/-! ## Programs that run no component -/

/-- Requests of a kind run no component, and an invariant is kept by the edits among them and when
answers are echoed. -/
structure Calm (allowed : Request K B → Prop) (I : World K B → Prop) : Prop where
  simple : ∀ request, allowed request → ¬ request.Compound
  edit : ∀ x w, allowed (.edit x) → I w → I (w.apply x).2
  echo : ∀ w tag request answer, I w → I (w.record (.echoed tag request answer))

section Runs

variable {R : Type} {allowed : Request K B → Prop} {I : World K B → Prop} (calm : Calm allowed I)
include calm

/-- A calm request is performed to its end and keeps the invariant. -/
theorem Calm.exists_perform {request : Request K B} (h : allowed request)
    (respond : Impulse K → SceneM K B Unit) {w : World K B} (hw : I w) :
    ∃ answer w', SceneM.performWith respond request w = .ok answer w' ∧ I w' := by
  cases request with
  | ask query => exact ⟨w.answer query, w, rfl, hw⟩
  | edit x => exact ⟨(w.apply x).1, (w.apply x).2, rfl, calm.edit x w h hw⟩
  | _ => exact absurd trivial (calm.simple _ h)

/-- A program that runs no component comes to an end, with whatever its edits keep. -/
theorem Program.exists_run {p : Program K B R} (only : p.Only allowed)
    (respond : Impulse K → SceneM K B Unit) {w : World K B} (hw : I w) :
    ∃ r w', p.run (SceneM.performWith respond) w = .ok r w' ∧ I w' := by
  induction p generalizing w with
  | done r => exact ⟨r, w, rfl, hw⟩
  | perform request next ih =>
    obtain ⟨answer, v, performed, hv⟩ := calm.exists_perform only.1 respond hw
    obtain ⟨r, w', run, hw'⟩ := ih answer (only.2 answer) hv
    exact ⟨r, w', (bind_of_ok performed).trans run, hw'⟩
  | echo tag request next ih =>
    obtain ⟨answer, v, performed, hv⟩ := calm.exists_perform only.1 respond hw
    obtain ⟨r, w', run, hw'⟩ := ih answer (only.2 answer) (calm.echo v tag request answer hv)
    exact ⟨r, w', (bind_of_ok performed).trans ((bind_of_ok rfl).trans run), hw'⟩

/-- A component that runs no other one serves a hook and goes back into its slot. -/
theorem SceneM.exists_hook (depth : Nat) {w : World K B} {e : EntityId} {index : Nat}
    {slot slot' : Slot K B} {component : Component K B} {hook : Hook K}
    (only : (component.react e hook).Only allowed) (there : w.slot? e index = some slot)
    (present : slot.component = some component)
    (start : I ((w.setComponent e index none).record (.hook e index .began hook)))
    (there' : ∀ v, I v → v.slot? e index = some slot') (idle : slot'.deferred = []) :
    ∃ component' v, I v ∧
      (∀ P, (component.react e hook).Yields P → P component') ∧
      SceneM.respond (depth + 1) (.hook e index hook) w
        = .ok () ((v.record (.hook e index .ended hook)).setComponent e index
            (some component')) := by
  obtain ⟨component', v, run, hv⟩ := Program.exists_run calm only (SceneM.respond depth) start
  exact ⟨component', v, hv, fun P yields => yields.run run,
    respond_of_run there present run (there' v hv) idle⟩

/-- An event is written into the journal, and an observer that runs no component comes to an
end. -/
theorem SceneM.exists_emit (depth : Nat) {event : ActorEvent K}
    (only : (Behavior.observe event : Program K B Unit).Only allowed) {w : World K B}
    (start : I (w.record (.actor event))) :
    ∃ w', SceneM.emit (SceneM.respond (depth + 1)) event w = .ok () w' ∧ I w' := by
  obtain ⟨_, w', run, hw'⟩ := Program.exists_run calm only (SceneM.respond depth) start
  exact ⟨w', (bind_of_ok rfl).trans run, hw'⟩

end Runs

/-! ## Observers that only look -/

omit [Scalar K] [Behavior K B]

/-- Edits that write into the journal and do nothing else. -/
def Edit.Remarks : Edit K B → Prop
  | .log .. | .note _ | .probed .. => True
  | _ => False

/-- Requests that leave a scene as it is, but for remarks in its journal. -/
def Request.Reads : Request K B → Prop
  | .ask _ => True
  | .edit x => x.Remarks
  | _ => False

/-- The event that the journal has of an actor. -/
def Event.notice? : Event K B → Option (ActorEvent K)
  | .actor event => some event
  | _ => none

namespace World

/-- What has happened to actors so far, oldest first. -/
def notices (w : World K B) : List (ActorEvent K) :=
  w.noted Event.notice?

/-- Worlds that differ by remarks in the journal. -/
structure Remarked (w w' : World K B) : Prop where
  rest : w' = { w with journal := w'.journal }
  notices : w'.notices = w.notices
  stages : w'.stages = w.stages

/-- A note that tells of no actor and of no hook is a remark. -/
theorem Remarked.record {w w' : World K B} (h : w.Remarked w') {event : Event K B}
    (notice : event.notice? = none) (stage : event.stage? = none) :
    w.Remarked (w'.record event) where
  rest := by
    rw [h.rest]
    rfl
  notices := (noted_record_aside w' notice).trans h.notices
  stages := (stages_record_aside w' stage).trans h.stages

end World

variable [Scalar K] [Behavior K B]

/-- Requests that only read and remark are calm. -/
theorem calm_reads (w : World K B) : Calm (Request.Reads (K := K) (B := B)) w.Remarked where
  simple request reads compound := by
    cases request with
    | ask | edit => exact compound
    | _ => exact reads
  edit x v reads remarked := by
    cases x with
    | log | note | probed => exact remarked.record rfl rfl
    | _ => exact absurd reads id
  echo v tag request answer remarked := remarked.record rfl rfl

end SheepScene
