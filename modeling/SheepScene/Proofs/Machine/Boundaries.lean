import SheepScene.Proofs.Machine.WaitBlocks
import SheepScene.Proofs.Sheep.Filling

/-!
# Threads of code that is laid out

A thread is on the track of a script whose code is a list of instructions when it stands at the
start of one of them or at the end (`Thread.OnTrack`). A step stays on the track and does not fail
because of the code (`Thread.OnTrack.step`): the next instruction starts where one ends, and jumps
lead to boundaries.

What instructions keep, of a thread and its past (`Thread.Recorded`) or of the thread alone
(`Thread.Invariant`), holds of every thread of a scheduler at all moments
(`Timeline.forall_threads`, `Timeline.throughout`), whatever happens to the world in between, and of
every evaluation. Together with what is known of assembled scripts this gives
`assembled_code_stays_on_track`.
-/

set_option autoImplicit false

namespace SheepScene

open Bytecode (encodeAll startOf Boundary)

variable {W Body : Type}

/-- The host function that a call finds, and the arguments that it takes. -/
def Thread.callee? (table : HostTable Body) (pc : Nat) (index : UInt32) (t : Thread) :
    Option (HostFunction Body × List Value) :=
  match (Thread.callArguments table pc index).run.run t with
  | (.ok found, _) => some found
  | _ => none

namespace Moment

/-- The host function that the instruction at a moment calls, and the arguments. -/
def call? (m : Moment W Body) : Option (HostFunction Body × List Value) :=
  match Instruction.decode m.thread.script.bytecode m.thread.pc with
  | .ok (.callSysFunction _ index, next) =>
    Thread.callee? m.table m.thread.pc index { m.thread with pc := next }
  | _ => none

/-- The error that the host function called at a moment answers. -/
def refusal? (host : Host W Body) (m : Moment W Body) : Option ScriptError :=
  match m.call? with
  | some (f, args) => match host.call f.body args m.world with
    | .ok (.error e) _ => some e
    | _ => none
  | none => none

end Moment

namespace Thread

/-! ## One instruction -/

/-- Threads at the same place of the same script. -/
structure SamePlace (t t' : Thread) : Prop where
  script : t'.script = t.script
  pc : t'.pc = t.pc

/-- Steps that neither jump nor open or close blocks stay where they are, and fail only for their
operands. -/
theorem samePlace_frame : Exec.Frame SamePlace fun e => e.derails = false where
  refl _ := ⟨rfl, rfl⟩
  trans h h' := ⟨h'.script.trans h.script, h'.pc.trans h.pc⟩
  stack _ _ := ⟨rfl, rfl⟩
  vars _ _ _ := ⟨rfl, rfl⟩
  error h := h

/-- A thread of the script `s`, whose code is `l`, at the start of an instruction or at the end. -/
structure OnTrack (s : Script) (l : List Instruction) (t : Thread) : Prop where
  script : t.script = s
  boundary : Boundary l t.pc

/-- A thread at the same place is on the track as well. -/
theorem OnTrack.of_samePlace {s : Script} {l : List Instruction} {t t' : Thread}
    (h : OnTrack s l t) (same : SamePlace t t') : OnTrack s l t' :=
  ⟨same.script.trans h.script, same.pc ▸ h.boundary⟩

section Tracks

variable {s : Script} {l : List Instruction} {α β : Type}

/-- Steps that keep a thread on the track, also where they stop, and fail only for their operands.
-/
def Tracks (s : Script) (l : List Instruction) (x : Exec α) : Prop :=
  ∀ t, OnTrack s l t → OnTrack s l (x.run.run t).2 ∧
    ∀ e, (x.run.run t).1 = .error (.error e) → e.derails = false

/-- Two steps in turn keep a thread on the track when each of them does. -/
theorem Tracks.bind {x : Exec α} {f : α → Exec β} (hx : Tracks s l x)
    (hf : ∀ a, Tracks s l (f a)) : Tracks s l (x >>= f) := by
  intro t ht
  have first := hx t ht
  rw [Exec.run_bind]
  rcases hrun : x.run.run t with ⟨e | a, t'⟩
  · rw [hrun] at first
    exact ⟨first.1, fun e' he' => first.2 e' (by cases he'; rfl)⟩
  · rw [hrun] at first
    exact hf a t' first.1

/-- Steps that stay where they are. -/
theorem tracks_of_respects {x : Exec α} {V : α → Prop}
    (h : Exec.Respects SamePlace (fun e => e.derails = false) x V) : Tracks s l x :=
  fun t ht => ⟨ht.of_samePlace (h.thread t), fun _ he => h.error he⟩

/-- A jump to a boundary succeeds. -/
theorem tracks_jump (laid : s.LaidOut l) {target : UInt32} (hb : Boundary l target.toNat)
    (pc : Nat) : Tracks s l (jump pc target) := by
  intro t ht
  have inside : ¬ t.script.bytecode.size < target.toNat := by
    rw [ht.script, ← Array.length_toList, laid.code]
    exact Nat.not_lt.2 hb.le
  unfold jump
  rw [Exec.run_bind, Exec.run_get]
  dsimp only
  rw [if_neg inside]
  exact ⟨⟨ht.script, hb⟩, fun e he => by cases he⟩

/-- An instruction of the code keeps a thread on the track. -/
theorem tracks_execute (laid : s.LaidOut l) (isComplete : WaitHandle → Bool) (pc : Nat)
    {i : Instruction} (hi : i ∈ l) : Tracks s l (execute isComplete pc i) := by
  have looks : Tracks s l (get : Exec Thread) :=
    tracks_of_respects (Exec.respects_get samePlace_frame)
  have proceeds : Tracks s l (pure Flow.proceed) :=
    tracks_of_respects (Exec.respects_pure (V := fun _ => True) samePlace_frame trivial)
  have other : i ≠ .beginWait → i ≠ .endWait → i.target? = none →
      Tracks s l (execute isComplete pc i) := fun hbegin hend hplain =>
    tracks_of_respects (Exec.respects_execute samePlace_frame isComplete pc hbegin hend
      fun hjump => absurd hplain hjump)
  cases i with
  | branch target | branchGoto target =>
    have jumps := tracks_jump laid (laid.targets _ hi target rfl) pc
    exact looks.bind fun _ => jumps.bind fun _ => proceeds
  | branchIfZero target =>
    have jumps := tracks_jump laid (laid.targets _ hi target rfl) pc
    refine looks.bind fun _ => ?_
    refine (tracks_of_respects (Exec.respects_pop samePlace_frame)).bind fun v => ?_
    dsimp only
    split
    · exact jumps.bind fun _ => proceeds
    · exact proceeds
  | beginWait => exact fun t ht => ⟨⟨ht.script, ht.boundary⟩, fun e he => by cases he⟩
  | endWait =>
    intro t ht
    rw [execute_endWait]
    dsimp only
    by_cases hdepth : (if t.waitDepth = 0 then 0 else t.waitDepth - 1) = 0
    · rw [if_pos hdepth]
      exact ⟨⟨ht.script, ht.boundary⟩, fun e he => by cases he⟩
    · rw [if_neg hdepth]
      exact ⟨⟨ht.script, ht.boundary⟩, fun e he => by cases he⟩
  | _ => exact other (by simp) (by simp) rfl

end Tracks

variable {host : Host W Body} {table : HostTable Body}

/-- A host call stays where it is, and fails for its operands or because the function refuses. -/
theorem callHost_onTrack {t t' : Thread} {pc : Nat} {kind : Option Kind} {index : UInt32}
    {r : Except ScriptError Flow} {w w' : W}
    (h : callHost host table t pc kind index w = .ok (t', r) w') :
    SamePlace t t' ∧ ∀ e, r = .error e → e.derails = true →
      ∃ f args t₁, (callArguments table pc index).run.run t = (.ok (f, args), t₁) ∧
        host.call f.body args w = .ok (.error e) w' := by
  have args := Exec.respects_callArguments samePlace_frame table pc index
  have taken := fun reply => Exec.respects_bind samePlace_frame
    (Exec.respects_takeReply samePlace_frame (fun _ _ => ⟨rfl, rfl⟩) pc kind reply)
    fun _ _ => Exec.respects_pure (V := fun _ => True) (a := Flow.proceed) samePlace_frame trivial
  rcases callHost_cases h with ⟨e, rfl, hfound⟩ |
    ⟨f, found, t₁, hfound, ⟨e, hcall, rfl, rfl⟩ | ⟨reply, hcall, htake⟩⟩
  · have stays := args.thread t
    rw [hfound] at stays
    refine ⟨stays, fun e' he' hderails => ?_⟩
    cases he'
    rw [args.error (congrArg Prod.fst hfound)] at hderails
    cases hderails
  · have stays := args.thread t
    rw [hfound] at stays
    refine ⟨stays, fun e' he' _ => ?_⟩
    cases he'
    exact ⟨f, found, _, hfound, hcall⟩
  · have stays := args.thread t
    rw [hfound] at stays
    obtain ⟨-, rfl, -⟩ := runExec_ok htake
    refine ⟨samePlace_frame.trans stays ((taken reply).thread t₁), fun e' he' hderails => ?_⟩
    rw [(taken reply).error (runExec_error htake he')] at hderails
    cases hderails

/-- At the start of an instruction of the code, that instruction is read. -/
theorem OnTrack.decode {s : Script} {l : List Instruction} (laid : s.LaidOut l) {t : Thread}
    (ht : OnTrack s l t) (hinside : t.pc < t.script.bytecode.size) :
    ∃ i ∈ l, Instruction.decode t.script.bytecode t.pc = .ok (i, t.pc + i.size) ∧
      Boundary l (t.pc + i.size) := by
  obtain ⟨k, hk, hpc⟩ := ht.boundary
  have hsize : t.script.bytecode.size = startOf l l.length := by
    rw [Bytecode.startOf_length, ← laid.code, ht.script, Array.length_toList]
  have hlt : k < l.length := by
    rcases Nat.lt_or_eq_of_le hk with hlt | rfl
    · exact hlt
    · omega
  have hi := List.getElem?_eq_getElem hlt
  have front : t.script.bytecode.toList.drop t.pc
      = l[k].encode ++ encodeAll (l.drop (k + 1)) := by
    rw [ht.script, laid.code, hpc]
    exact Bytecode.drop_startOf hi
  refine ⟨l[k], List.getElem_mem hlt, Instruction.decode_of_drop front, ?_⟩
  rw [hpc]
  exact Bytecode.boundary_succ hi

/-- A step stays on the track. It does not fail because of the code, though a host function may
answer with any error. -/
theorem OnTrack.step {s : Script} {l : List Instruction} (laid : s.LaidOut l) {t t' : Thread}
    {r : Except ScriptError Flow} {w w' : W} (ht : OnTrack s l t)
    (h : step host table t w = .ok (t', r) w') :
    OnTrack s l t' ∧ ∀ e, r = .error e → e.derails = true →
      Moment.refusal? host ⟨t, w, table⟩ = some e := by
  rcases step_cases h with ⟨-, rfl, rfl⟩ | ⟨hinside, hcases⟩
  · exact ⟨ht, fun e he => by cases he⟩
  obtain ⟨i, hi, hdec, hnext⟩ := ht.decode laid hinside
  have moved : OnTrack s l { t with pc := t.pc + i.size } := ⟨ht.script, hnext⟩
  rcases hcases with ⟨e, herror, -⟩ | ⟨kind, index, next, hfound, hcall⟩ |
    ⟨i', next, hfound, -, hrun⟩
  · rw [hdec] at herror
    cases herror
  · cases hdec.symm.trans hfound
    obtain ⟨same, refused⟩ := callHost_onTrack hcall
    refine ⟨moved.of_samePlace same, fun e he hderails => ?_⟩
    obtain ⟨f, args, t₁, hargs, hanswer⟩ := refused e he hderails
    have called : Moment.call? ⟨t, w, table⟩ = some (f, args) := by
      simp only [Moment.call?, Thread.callee?, hdec, hargs]
    simp only [Moment.refusal?, called, hanswer]
  · cases hdec.symm.trans hfound
    obtain ⟨-, rfl, -⟩ := runExec_ok hrun
    obtain ⟨stays, benign⟩ := tracks_execute laid (host.isComplete w) t.pc hi _ moved
    refine ⟨stays, fun e he hderails => ?_⟩
    rw [benign e (runExec_error hrun he)] at hderails
    cases hderails

/-- A part of a thread that steps do not change. -/
theorem stepFrame_of {α : Type} {part : Thread → α}
    (stack : ∀ (t : Thread) stack, part { t with stack } = part t)
    (vars : ∀ (t : Thread) i v, part { t with vars := t.vars.setIfInBounds i v } = part t)
    (pc : ∀ (t : Thread) pc, part { t with pc } = part t)
    (waits : ∀ (t : Thread) waits, part { t with waits } = part t)
    (waitDepth : ∀ (t : Thread) waitDepth, part { t with waitDepth } = part t) :
    StepFrame fun t t' => part t' = part t :=
  { refl := fun _ => rfl, trans := fun h h' => h'.trans h, error := fun _ => trivial,
    invalidJump := fun _ _ => trivial, stack, vars, pc, waits, waitDepth }

/-- A step leaves a thread with its script. -/
theorem step_script {t t' : Thread} {r : Except ScriptError Flow} {w w' : W}
    (h : step host table t w = .ok (t', r) w') : t'.script = t.script :=
  (stepFrame_of (fun _ _ => rfl) (fun _ _ _ => rfl) (fun _ _ => rfl) (fun _ _ => rfl)
    (fun _ _ => rfl)).step h

/-- A step does not settle the status. -/
theorem step_status {t t' : Thread} {r : Except ScriptError Flow} {w w' : W}
    (h : step host table t w = .ok (t', r) w') : t'.status = t.status :=
  (stepFrame_of (fun _ _ => rfl) (fun _ _ _ => rfl) (fun _ _ => rfl) (fun _ _ => rfl)
    (fun _ _ => rfl)).step h

/-! ## Properties of threads and their past -/

/-- The moments of a thread that is run to its end at once. -/
def momentsToEnd (host : Host W Body) (table : HostTable Body) :
    Nat → Thread → W → List (Moment W Body)
  | 0, _, _ => []
  | budget + 1, t, w => ⟨t, w, table⟩ :: match advance host table t w with
    | .ok (t', _) w' =>
      match t'.status with
      | .finished | .failed _ => []
      | .waiting => momentsToEnd host table budget t'.releaseWaits w'
      | .ready => momentsToEnd host table budget t' w'
    | .error _ _ => []

/-- A property of a thread together with its past that running an instruction keeps, and for which
it does not matter whether the thread waits. -/
structure Recorded (host : Host W Body) (P : List (Moment W Body) → Thread → Prop) : Prop where
  step : ∀ {past table t w t' r w'}, P past t → Thread.step host table t w = .ok (t', r) w' →
    P (past ++ [⟨t, w, table⟩]) t'
  resume : ∀ {past t} status waits, P past t → P past { t with status, waits }

/-- What holds of a thread and its past before each of some moments. -/
def BeforeEach (P : List (Moment W Body) → Thread → Prop) (ms : List (Moment W Body)) : Prop :=
  ∀ past m, past ++ [m] <+: ms → P past m.thread

section Past

variable {P : List (Moment W Body) → Thread → Prop}

/-- There is nothing to show before no moment. -/
theorem beforeEach_nil : BeforeEach P [] := by
  intro past m hm
  simp at hm

/-- What holds before each of some moments, and then of the next one, holds before each of all
these. -/
theorem BeforeEach.concat {ms : List (Moment W Body)} (h : BeforeEach P ms) {m : Moment W Body}
    (hm : P ms m.thread) : BeforeEach P (ms ++ [m]) := by
  intro past n hn
  rcases List.prefix_concat_iff.1 hn with heq | hshort
  · obtain ⟨rfl, hlast⟩ := List.append_inj' heq rfl
    cases hlast
    exact hm
  · exact h past n hshort

/-- What holds before each moment holds before each of those at the beginning. -/
theorem BeforeEach.restrict {ms l : List (Moment W Body)} (h : BeforeEach P ms) (hl : l <+: ms) :
    BeforeEach P l :=
  fun past m hm => h past m (hm.trans hl)

/-- What holds whatever the past is holds at each of the moments. -/
theorem BeforeEach.forall_mem {P : Thread → Prop} {ms : List (Moment W Body)}
    (h : BeforeEach (fun _ => P) ms) : ∀ m ∈ ms, P m.thread := by
  intro m hm
  obtain ⟨past, rest, rfl⟩ := List.append_of_mem hm
  exact h past m ⟨rest, by simp⟩

namespace Recorded

variable (record : Recorded host P) (past : List (Moment W Body)) {budget : Nat} {t : Thread}
  {w w' : W}

include record in
/-- Running an instruction. -/
theorem advance {t' : Thread} {going : Bool} (ht : P past t)
    (h : Thread.advance host table t w = .ok (t', going) w') : P (past ++ [⟨t, w, table⟩]) t' := by
  obtain ⟨⟨t₁, e | flow⟩, w₁, hstep, hrest⟩ := bind_ok h
  · cases hrest
    exact record.resume (.failed e) t₁.waits (record.step ht hstep)
  · cases flow with
    | proceed =>
      cases hrest
      exact record.step ht hstep
    | yield | wait | finish =>
      cases hrest
      exact record.resume _ t₁.waits (record.step ht hstep)

include record in
/-- Every moment of a run within a budget. -/
theorem momentsFor (before : BeforeEach P past) (ht : P past t) :
    BeforeEach P (past ++ momentsFor host table budget t w) := by
  induction budget generalizing past t w with
  | zero =>
    unfold Thread.momentsFor
    rwa [List.append_nil]
  | succ budget ih =>
    have first : BeforeEach P (past ++ [⟨t, w, table⟩]) := before.concat ht
    unfold Thread.momentsFor
    rw [List.append_cons]
    rcases hadv : Thread.advance host table t w with ⟨⟨t₁, _ | _⟩, w₁⟩ | ⟨f, w₁⟩
    · rwa [List.append_nil]
    · exact ih _ first (record.advance past ht hadv)
    · rwa [List.append_nil]

include record in
/-- The end of a run within a budget. -/
theorem runFor {executed : Nat} {r : Thread × Nat} (ht : P past t)
    (h : Thread.runFor host table budget executed t w = .ok r w') :
    P (past ++ Thread.momentsFor host table budget t w) r.1 := by
  induction budget generalizing executed past t w with
  | zero =>
    cases h
    unfold Thread.momentsFor
    rw [List.append_nil]
    exact record.resume .ready t.waits ht
  | succ budget ih =>
    obtain ⟨⟨t₁, going⟩, w₁, hadv, hrest⟩ := bind_ok h
    have ht₁ := record.advance past ht hadv
    unfold Thread.momentsFor
    rw [hadv, List.append_cons]
    cases going with
    | true => exact ih _ ht₁ hrest
    | false =>
      cases hrest
      rwa [List.append_nil]

include record in
/-- Every moment of a thread that is let run. -/
theorem moments (before : BeforeEach P past) (ht : P past t) :
    BeforeEach P (past ++ t.moments host table budget w) := by
  unfold Thread.moments
  split
  · rwa [List.append_nil]
  · rwa [List.append_nil]
  · dsimp only
    split
    · exact record.momentsFor past before (record.resume _ _ ht)
    · rwa [List.append_nil]
  · exact record.momentsFor past before ht

include record in
/-- A thread that has been let run. -/
theorem run {r : Thread × Nat} (ht : P past t) (h : t.run host table budget w = .ok r w') :
    P (past ++ t.moments host table budget w) r.1 := by
  unfold Thread.run at h
  unfold Thread.moments
  cases hstatus : t.status with
  | finished | failed e =>
    simp only [hstatus] at h ⊢
    cases h
    rwa [List.append_nil]
  | ready =>
    simp only [hstatus] at h ⊢
    exact record.runFor past ht h
  | waiting =>
    simp only [hstatus] at h ⊢
    obtain ⟨_, _, hget, h⟩ := bind_ok h
    cases hget
    split at h
    · rename_i hempty
      rw [if_pos hempty]
      exact record.runFor past (record.resume _ _ ht) h
    · rename_i hblocked
      rw [if_neg hblocked, List.append_nil]
      cases h
      exact record.resume _ _ ht

include record in
/-- Every moment of a thread that is run to its end at once. -/
theorem momentsToEnd (before : BeforeEach P past) (ht : P past t) :
    BeforeEach P (past ++ momentsToEnd host table budget t w) := by
  induction budget generalizing past t w with
  | zero =>
    unfold Thread.momentsToEnd
    rwa [List.append_nil]
  | succ budget ih =>
    have first : BeforeEach P (past ++ [⟨t, w, table⟩]) := before.concat ht
    unfold Thread.momentsToEnd
    rw [List.append_cons]
    split
    · rename_i t' going w' hadv
      have ht' := record.advance past ht hadv
      split
      · rwa [List.append_nil]
      · rwa [List.append_nil]
      · exact ih _ first (record.resume .ready [] ht')
      · exact ih _ first ht'
    · rwa [List.append_nil]

end Recorded

end Past

/-! ## Properties of threads -/

/-- A property of threads that running an instruction keeps, and for which it does not matter
whether the thread waits. -/
structure Invariant (host : Host W Body) (P : Thread → Prop) : Prop where
  step : ∀ {table t w t' r w'}, P t → Thread.step host table t w = .ok (t', r) w' → P t'
  resume : ∀ {t} status waits, P t → P { t with status, waits }

/-- Keeping its script, and staying on the track if that script is laid out, is such a property. -/
theorem invariant_onTrack (host : Host W Body) (s : Script) :
    Invariant host fun t => t.script = s ∧ ∀ l, s.LaidOut l → OnTrack s l t where
  step ht h :=
    ⟨(step_script h).trans ht.1, fun l laid => ((ht.2 l laid).step laid h).1⟩
  resume _ _ h := ⟨h.1, fun l laid => ⟨h.1, (h.2 l laid).boundary⟩⟩

namespace Invariant

variable {P : Thread → Prop} (inv : Invariant host P)

include inv in
/-- What holds of all moments holds of them whatever the past is. -/
theorem recorded : Recorded host fun _ => P where
  step := inv.step
  resume := inv.resume

include inv in
/-- Running an instruction. -/
theorem advance {t t' : Thread} {going : Bool} {w w' : W} (ht : P t)
    (h : Thread.advance host table t w = .ok (t', going) w') : P t' :=
  inv.recorded.advance [] ht h

include inv in
/-- Every moment of a run within a budget. -/
theorem momentsFor {budget : Nat} {t : Thread} {w : W} (ht : P t) :
    ∀ m ∈ momentsFor host table budget t w, P m.thread :=
  (inv.recorded.momentsFor [] beforeEach_nil ht).forall_mem

include inv in
/-- The end of a run within a budget. -/
theorem runFor {budget executed : Nat} {t : Thread} {w w' : W} {r : Thread × Nat} (ht : P t)
    (h : Thread.runFor host table budget executed t w = .ok r w') : P r.1 :=
  inv.recorded.runFor [] ht h

include inv in
/-- Every moment of a thread that is let run. -/
theorem moments {budget : Nat} {t : Thread} {w : W} (ht : P t) :
    ∀ m ∈ t.moments host table budget w, P m.thread :=
  (inv.recorded.moments [] beforeEach_nil ht).forall_mem

include inv in
/-- A thread that has been let run. -/
theorem run {budget : Nat} {t : Thread} {w w' : W} {r : Thread × Nat} (ht : P t)
    (h : t.run host table budget w = .ok r w') : P r.1 :=
  inv.recorded.run [] ht h

include inv in
/-- Every moment of a thread that is run to its end at once. -/
theorem momentsToEnd {budget : Nat} {t : Thread} {w : W} (ht : P t) :
    ∀ m ∈ momentsToEnd host table budget t w, P m.thread :=
  (inv.recorded.momentsToEnd [] beforeEach_nil ht).forall_mem

end Invariant

end Thread

/-! ## Schedulers -/

/-- How a scheduler comes about: threads are started, it is updated, threads are stopped, host
functions are registered, and between any two of these the world may become any other. -/
inductive Timeline (host : Host W Body) : Watch W Body → Prop where
  | empty (table budget nextId) : Timeline host { table, threads := [], budget, nextId }
  | start {x script function w x' w'} : Timeline host x →
      x.start host script function w = .ok x' w' → Timeline host x'
  | update {x w x' w'} : Timeline host x → x.update host w = .ok x' w' → Timeline host x'
  | stop {x} (id) : Timeline host x → Timeline host (x.stop id)
  | configure {x} (table budget) : Timeline host x → Timeline host { x with table, budget }

namespace Watched

/-- A property of a thread now and at all moments of its past. -/
structure Throughout (P : Thread → Prop) (y : Watched W Body) : Prop where
  past : ∀ m ∈ y.past, P m.thread
  now : P y.thread

variable {host : Host W Body} {table : HostTable Body} {P : Thread → Prop}
  (inv : Thread.Invariant host P)

include inv in
/-- A property that instructions keep is kept by letting a thread run, also at the moments of the
run. -/
theorem throughout_runOne {budget : Nat} {y y' : Watched W Body} {w w' : W}
    (h : y.Throughout P) (hrun : Watch.runOne host table budget y w = .ok y' w') :
    y'.Throughout P := by
  obtain ⟨_, _, hget, hrun⟩ := bind_ok hrun
  cases hget
  obtain ⟨r, w₁, hok, hrun⟩ := bind_ok hrun
  cases hrun
  refine ⟨fun m hm => ?_, inv.run h.now hok⟩
  rcases List.mem_append.1 hm with hm | hm
  · exact h.past m hm
  · exact inv.moments h.now m hm

end Watched

/-- What holds of threads without a past, and what letting a thread run keeps, holds of every thread
of a scheduler. -/
theorem Timeline.forall_threads {host : Host W Body} {Q : Watched W Body → Prop}
    (one : ∀ {table budget y w y' w'}, Q y →
      Watch.runOne host table budget y w = .ok y' w' → Q y')
    (fresh : ∀ {id script function t}, Thread.start id script function = .ok t → Q ⟨t, []⟩)
    {x : Watch W Body} (h : Timeline host x) : ∀ y ∈ x.threads, Q y := by
  -- the world may change in any way, since the property does not mention it
  have upholds : Watch.Upholds host (fun _ _ => True) fun _ => Q :=
    { refl := fun _ => trivial, trans := fun _ _ => trivial, fresh := fun _ => fresh,
      run := fun hy hrun => ⟨one hy hrun, trivial⟩, change := fun hy _ => hy }
  induction h with
  | empty => simp
  | start _ hstart ih => exact upholds.start ih hstart
  | update _ hupdate ih => exact upholds.update ih hupdate
  | stop id _ ih => exact fun y hy => ih y ((List.mem_filter.1 hy).1)
  | configure table budget _ ih => exact ih

/-- A property that threads have when a script is started, and that instructions keep, holds of
every thread of a scheduler at all moments. -/
theorem Timeline.throughout {host : Host W Body} {P : Script → Thread → Prop}
    (inv : ∀ script, Thread.Invariant host (P script))
    (fresh : ∀ {id script function t}, Thread.start id script function = .ok t → P script t)
    {x : Watch W Body} (h : Timeline host x) : ∀ y ∈ x.threads, ∃ s, y.Throughout (P s) :=
  h.forall_threads
    (fun ⟨s, hy⟩ hrun => ⟨s, Watched.throughout_runOne (inv s) hy hrun⟩)
    fun ht => ⟨_, fun _ hm => absurd hm List.not_mem_nil, fresh ht⟩

/-! ## Assembled code -/

/-- A thread that is started from a script that is laid out is on the track. -/
theorem Thread.onTrack_start {id : UInt32} {script : Script} {function : String} {t : Thread}
    (h : Thread.start id script function = .ok t) :
    t.script = script ∧ ∀ l, script.LaidOut l → OnTrack script l t := by
  unfold Thread.start at h
  cases hoffset : script.functionOffset? function with
  | none =>
    rw [hoffset] at h
    cases h
  | some offset =>
    rw [hoffset] at h
    cases h
    refine ⟨rfl, fun l laid => ⟨rfl, ?_⟩⟩
    obtain ⟨f, hf, rfl⟩ := Option.map_eq_some_iff.1 hoffset
    exact laid.functions f (Array.mem_of_find?_eq_some hf)

/-- What is true of a moment whose thread runs code made of `written`: the next instruction is one
of these, or the code is at its end, and the step does not fail because of the code. Errors that a
host function answers are handed on whatever they are. -/
structure Moment.InOrder (host : Host W Body) (written : List Instruction) (m : Moment W Body) :
    Prop where
  place : (∃ k < written.length, m.thread.pc = startOf written k) ∨
    m.thread.pc = m.thread.script.bytecode.size
  error : ∀ {t' e w'}, m.thread.step host m.table m.world = .ok (t', .error e) w' →
    e.derails = false ∨ m.refusal? host = some e

/-- Every moment on the track is in order. -/
theorem Thread.OnTrack.inOrder {s : Script} {l written : List Instruction} (laid : s.LaidOut l)
    (same : SameButTargets written l) {host : Host W Body} {m : Moment W Body}
    (h : OnTrack s l m.thread) : m.InOrder host written where
  place := by
    obtain ⟨k, hk, hpc⟩ := h.boundary
    rw [same.length_eq] at hk
    rcases Nat.lt_or_eq_of_le hk with hlt | rfl
    · exact .inl ⟨k, hlt, hpc.trans (same.startOf_eq k)⟩
    · right
      rw [hpc, h.script, ← same.length_eq, Bytecode.startOf_length, ← laid.code,
        Array.length_toList]
  error hstep := by
    have fails := (h.step laid hstep).2 _ rfl
    cases hderails : ScriptError.derails _ with
    | false => exact .inl rfl
    | true => exact .inr (fails hderails)

/-- The moments of evaluating a function. -/
def Scheduler.evaluationMoments (host : Host W Body) (s : Scheduler Body) (script : Script)
    (function : String) (w : W) : List (Moment W Body) :=
  match Thread.start 0 script function with
  | .error _ => []
  | .ok t => t.momentsToEnd host s.table s.budget.toNat w

/-- Assembled code does not derail a thread. Whatever an assembler has been used for, if its code
fits in a word and it builds a script, every thread of that script that a scheduler runs, and every
evaluation of a function of it, only ever stands where an instruction has been written or at the end
of the code; no step fails for an unknown or truncated instruction or for an invalid jump, unless a
host function answers with that error. The moments are those of the runs so far and those of the run
that the thread would make now, in any world and on any budget; a run may end in a fault. -/
theorem assembled_code_stays_on_track {name : String} {us : List Assembler.Use} {script : Script}
    (fits : ((Assembler.start name).uses us).script.bytecode.size < UInt32.size)
    (hbuild : ((Assembler.start name).uses us).build? = .ok script) (host : Host W Body) :
    (∀ x : Watch W Body, Timeline host x → ∀ y, x.CanRun y → y.thread.script = script →
      ∀ budget w, ∀ m ∈ y.past ++ y.thread.moments host x.table budget w,
        m.InOrder host ((Assembler.start name).written us)) ∧
    ∀ (s : Scheduler Body) (function : String) (w : W),
      ∀ m ∈ s.evaluationMoments host script function w,
        m.InOrder host ((Assembler.start name).written us) := by
  obtain ⟨l, same, laid⟩ := Assembler.laidOut_build fits hbuild
  have inv := Thread.invariant_onTrack host
  constructor
  · intro x hx y hy hscript budget w m hm
    obtain ⟨s, past, now⟩ : ∃ s, y.Throughout fun t =>
        t.script = s ∧ ∀ l, s.LaidOut l → Thread.OnTrack s l t := by
      cases hy with
      | known hmem => exact hx.throughout inv Thread.onTrack_start y hmem
      | fresh hstart =>
        exact ⟨_, fun m hm => absurd hm List.not_mem_nil, Thread.onTrack_start hstart⟩
    obtain rfl : s = script := now.1.symm.trans hscript
    have tracked : m.thread.script = s ∧ ∀ l, s.LaidOut l → Thread.OnTrack s l m.thread := by
      rcases List.mem_append.1 hm with hm | hm
      · exact past m hm
      · exact (inv s).moments now m hm
    exact (tracked.2 l laid).inOrder laid same
  · intro s function w m hm
    unfold Scheduler.evaluationMoments at hm
    split at hm
    · exact absurd hm List.not_mem_nil
    · rename_i t hstart
      have tracked := (inv script).momentsToEnd (Thread.onTrack_start hstart) m hm
      exact (tracked.2 l laid).inOrder laid same

/-- Uses that write a jump over an instruction to a label that is bound later. -/
def leapUses : List Assembler.Use :=
  [.newLabel, .declareFunction "Main", .emit (.pushI 0) rfl, .branchIfZero ⟨0⟩,
    .emit (.pushI 1) rfl, .bind ⟨0⟩, .emit .returnV rfl]

/-- The jump leads over the second push to the start of the last instruction. -/
theorem assembled_code_stays_on_track_leap :
    ∃ script, ((Assembler.start "leap").uses leapUses).script.bytecode.size < UInt32.size ∧
      ((Assembler.start "leap").uses leapUses).build? = .ok script ∧
      (doorWatch.scheduler.evaluationMoments doorHost script "main" true).map
        (fun m => m.thread.pc) = [0, 5, 15] ∧
      ∀ m ∈ doorWatch.scheduler.evaluationMoments doorHost script "main" true,
        m.InOrder doorHost ((Assembler.start "leap").written leapUses) :=
  have fits : ((Assembler.start "leap").uses leapUses).script.bytecode.size < UInt32.size := by
    decide
  ⟨_, fits, rfl, by decide +kernel,
    (assembled_code_stays_on_track fits rfl doorHost).2 doorWatch.scheduler "main" true⟩

/-- A host whose functions answer with the errors that they are made of. -/
def refusingHost : Host Unit ScriptError where
  call e _ := pure (.error e)
  isComplete _ _ := true
  report _ w := w

/-- A scheduler with a function that answers as if an instruction were unknown. -/
def refusingScheduler : Scheduler ScriptError where
  table := ⟨#[⟨"Refuse", [], none, .unknownOpcode 0 0⟩]⟩
  threads := #[]
  budget := 10
  nextId := 1

/-- Uses that write a call of the function that refuses. -/
def refusedUses : List Assembler.Use :=
  [.declareFunction "Main", .call "Refuse" 0 none, .emit .returnV rfl]

/-- The script that these uses build: `PushI`, the call, `Pop`, `ReturnV`. -/
def refused : Script :=
  { Script.blank "refused" with
    functions := #[⟨"Main", 0⟩]
    imports := #[⟨"Refuse", 0⟩]
    bytecode := #[0x13, 0, 0, 0, 0, 0x02, 0, 0, 0, 0, 0x16, 1, 0, 0, 0, 0x0B] }

/-- The uses make the script as it is written out. -/
theorem uses_refusedUses :
    (Assembler.start "refused").uses refusedUses = ⟨refused, #[], #[]⟩ := by
  have interned : ((Assembler.start "refused").declareFunction "Main").internImport "Refuse" 0
      = (0, ⟨{ refused with bytecode := #[] }, #[], #[]⟩) := by
    unfold Assembler.internImport
    rw [show ((Assembler.start "refused").declareFunction "Main").script.imports = #[] from rfl,
      Array.findIdx?_empty]
    rfl
  simp only [Assembler.uses, refusedUses, List.foldl_cons, List.foldl_nil, Assembler.use,
    Assembler.call, interned]
  rfl

/-- The exception for errors of host functions is needed: a host function may answer with the error
of an unknown instruction, and then a step of assembled code fails with it, though the code is laid
out as ever. -/
theorem host_errors_may_look_like_derailing :
    ∃ script, ((Assembler.start "refused").uses refusedUses).script.bytecode.size < UInt32.size ∧
      ((Assembler.start "refused").uses refusedUses).build? = .ok script ∧
      ∃ m ∈ refusingScheduler.evaluationMoments refusingHost script "main" (), ∃ t' e w',
        m.thread.step refusingHost m.table m.world = .ok (t', .error e) w' ∧ e.derails = true := by
  rw [uses_refusedUses]
  refine ⟨refused, by decide, rfl, ?_⟩
  -- the second instruction is the call
  exact ⟨_, List.mem_cons_of_mem _ (List.mem_cons_self ..), _, _, _, rfl, rfl⟩

end SheepScene
