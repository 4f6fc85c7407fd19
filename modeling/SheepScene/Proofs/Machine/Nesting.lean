import Mathlib.Algebra.Ring.Nat
import Mathlib.Data.List.Induction
import SheepScene.Proofs.Machine.Operands
import SheepScene.Proofs.Machine.Rounds

/-!
# How deep wait blocks nest

A thread counts its open wait blocks in a word. The same count without a bound, taken from the
instructions that the thread has run, is their `nesting`. The count of the thread is the nesting
until 2 ^ 32 blocks are open for the first time (`Thread.Counted`); just then it wraps around
(`exists_overflows_iff`), and the thread has by then run as many instructions that open a block.
The budget of an evaluation does not suffice for that. Updates may go on for ever, so a thread that
opens blocks in a loop gets there whatever the budget is (`burrow_overflows`).

The main result is `blocks_are_counted_in_a_word`.
-/

set_option autoImplicit false

namespace SheepScene

variable {W Body : Type}

namespace Moment

/-- Whether the instruction at a moment opens a wait block. -/
def opens (m : Moment W Body) : Bool :=
  match Instruction.decode m.thread.script.bytecode m.thread.pc with
  | .ok (.beginWait, _) => true
  | _ => false

/-- How many blocks are open after the instruction at a moment if there are `n` before it, counted
without a bound. -/
def recount (m : Moment W Body) (n : Nat) : Nat :=
  match Instruction.decode m.thread.script.bytecode m.thread.pc with
  | .ok (.beginWait, _) => n + 1
  | .ok (.endWait, _) => n - 1
  | _ => n

/-- An instruction opens a block when it is the one that begins a wait. -/
theorem opens_iff {m : Moment W Body} : m.opens = true ↔
    ∃ next, Instruction.decode m.thread.script.bytecode m.thread.pc = .ok (.beginWait, next) := by
  unfold opens
  split
  · rename_i next hdec
    exact ⟨fun _ => ⟨next, hdec⟩, fun _ => rfl⟩
  · rename_i hother
    exact ⟨fun h => (Bool.false_ne_true h).elim, fun ⟨next, hdec⟩ => absurd hdec (hother next)⟩

/-- Instructions that neither open nor close a block do not count. -/
theorem recount_of_other {m : Moment W Body} (n : Nat)
    (other : ∀ i next, Instruction.decode m.thread.script.bytecode m.thread.pc = .ok (i, next) →
      i ≠ .beginWait ∧ i ≠ .endWait) : m.recount n = n := by
  unfold recount
  split
  · rename_i next hdec
    exact absurd rfl (other _ next hdec).1
  · rename_i next hdec
    exact absurd rfl (other _ next hdec).2
  · rfl

/-- Only an instruction that opens a block adds one. -/
theorem recount_le (m : Moment W Body) (n : Nat) :
    m.recount n ≤ n + if m.opens then 1 else 0 := by
  unfold recount
  split
  · rename_i next hdec
    have one : (if m.opens then 1 else 0) = 1 := if_pos (opens_iff.2 ⟨next, hdec⟩)
    omega
  · omega
  · omega

/-- Without an overflow the next count is a word as well. -/
theorem recount_lt {m : Moment W Body} (h : ¬ m.Overflows) :
    m.recount m.thread.waitDepth.toNat < 2 ^ 32 := by
  have bound := m.thread.waitDepth.toNat_lt
  unfold recount
  split
  · rename_i next hdec
    have below : m.thread.waitDepth.toNat ≠ 0xFFFFFFFF :=
      fun hmax => h ⟨UInt32.toNat_inj.1 hmax, next, hdec⟩
    omega
  · omega
  · exact bound

/-- An overflow is the step to a count that is no word. -/
theorem recount_of_overflows {m : Moment W Body} (h : m.Overflows) :
    m.recount m.thread.waitDepth.toNat = 2 ^ 32 := by
  obtain ⟨hmax, next, hdec⟩ := h
  unfold recount
  rw [hdec, hmax]
  rfl

end Moment

/-- How many wait blocks are open after some moments of a thread, counted without a bound. -/
def nesting (ms : List (Moment W Body)) : Nat :=
  ms.foldl (fun n m => m.recount n) 0

/-- The nesting after one more moment is counted on from the nesting before. -/
theorem nesting_concat (ms : List (Moment W Body)) (m : Moment W Body) :
    nesting (ms ++ [m]) = m.recount (nesting ms) := by
  simp [nesting]

/-- There are no more open blocks than have been opened. -/
theorem nesting_le_countP (ms : List (Moment W Body)) : nesting ms ≤ ms.countP Moment.opens := by
  induction ms using List.reverseRecOn with
  | nil => exact Nat.le_refl 0
  | append_singleton ms m ih =>
    have adds := m.recount_le (nesting ms)
    rw [nesting_concat, List.countP_append, List.countP_singleton]
    omega

namespace Thread

variable {host : Host W Body} {table : HostTable Body}

/-! ## One instruction -/

/-- Steps of other instructions leave the count of blocks as it is. -/
theorem sameDepth_frame :
    Exec.JumpFrame (fun t t' => t'.waitDepth = t.waitDepth) fun _ => True where
  refl _ := rfl
  trans h h' := h'.trans h
  stack _ _ := rfl
  vars _ _ _ := rfl
  error _ := trivial
  pc _ _ := rfl
  invalidJump _ _ := trivial

/-- Closing a block takes one off the count, unless it is zero. -/
theorem execute_endWait_depth (isComplete : WaitHandle → Bool) (pc : Nat) (t : Thread) :
    ((execute isComplete pc .endWait).run.run t).2.waitDepth.toNat = t.waitDepth.toNat - 1 := by
  have left : (if t.waitDepth = 0 then 0 else t.waitDepth - 1).toNat = t.waitDepth.toNat - 1 := by
    by_cases hzero : t.waitDepth = 0
    · rw [if_pos hzero, hzero]
      rfl
    · have hpos : t.waitDepth.toNat ≠ 0 := fun h => hzero (UInt32.toNat_inj.1 h)
      have hle : 1 ≤ t.waitDepth := UInt32.le_iff_toNat_le.2 (Nat.one_le_iff_ne_zero.2 hpos)
      rw [if_neg hzero, UInt32.toNat_sub_of_le _ _ hle]
      rfl
  rw [execute_endWait]
  dsimp only
  by_cases hlast : (if t.waitDepth = 0 then 0 else t.waitDepth - 1) = 0
  · rw [if_pos hlast, ← left, hlast]
  · rw [if_neg hlast, ← left]

/-- A step counts the blocks in a word, however it ends. -/
theorem step_depth {t t' : Thread} {r : Except ScriptError Flow} {w w' : W}
    (h : step host table t w = .ok (t', r) w') :
    t'.waitDepth.toNat = Moment.recount ⟨t, w, table⟩ t.waitDepth.toNat % 2 ^ 32 := by
  have kept : ∀ {t' : Thread}, t'.waitDepth = t.waitDepth →
      (∀ i next, Instruction.decode t.script.bytecode t.pc = .ok (i, next) →
        i ≠ .beginWait ∧ i ≠ .endWait) →
      t'.waitDepth.toNat = Moment.recount ⟨t, w, table⟩ t.waitDepth.toNat % 2 ^ 32 := by
    intro t' same other
    rw [Moment.recount_of_other _ other, same, Nat.mod_eq_of_lt t.waitDepth.toNat_lt]
  -- only the two instructions of wait blocks touch the count
  rcases step_cases h with ⟨hend, rfl, -⟩ | ⟨-, ⟨e, hdec, rfl, -⟩ |
    ⟨kind, index, next, hdec, hcall⟩ | ⟨i, next, hdec, -, hrun⟩⟩
  · exact kept rfl fun i next hdec =>
      absurd (Instruction.inside_of_decode hdec) (Nat.not_lt.2 hend)
  · refine kept rfl fun i next hdec' => ?_
    cases hdec.symm.trans hdec'
  · have same := callHost_respects sameDepth_frame.toFrame (fun _ _ => rfl) hcall
    refine kept same fun i next hdec' => ?_
    cases hdec.symm.trans hdec'
    exact ⟨by simp, by simp⟩
  · obtain ⟨-, rfl, -⟩ := runExec_ok hrun
    by_cases hbegin : i = .beginWait
    · subst hbegin
      rw [execute_beginWait]
      unfold Moment.recount
      rw [hdec]
      exact UInt32.toNat_add _ _
    by_cases hclose : i = .endWait
    · subst hclose
      have closed := execute_endWait_depth (host.isComplete w) t.pc { t with pc := next }
      have bound := t.waitDepth.toNat_lt
      unfold Moment.recount
      rw [hdec, closed]
      dsimp only
      omega
    have respects := Exec.respects_execute sameDepth_frame.toFrame (host.isComplete w) t.pc
      hbegin hclose fun _ => sameDepth_frame
    refine kept (respects.thread { t with pc := next }) fun i' next' hdec' => ?_
    cases hdec.symm.trans hdec'
    exact ⟨hbegin, hclose⟩

end Thread

namespace Watched

/-- A property of a thread and its past, now and before each moment of the past. -/
structure Records (P : List (Moment W Body) → Thread → Prop) (y : Watched W Body) : Prop where
  past : Thread.BeforeEach P y.past
  now : P y.past y.thread

variable {host : Host W Body} {table : HostTable Body} {P : List (Moment W Body) → Thread → Prop}
  (record : Thread.Recorded host P)

include record in
/-- A property of threads and their past that instructions keep is kept by letting a thread run. -/
theorem records_runOne {budget : Nat} {y y' : Watched W Body} {w w' : W} (h : y.Records P)
    (hrun : Watch.runOne host table budget y w = .ok y' w') : y'.Records P := by
  obtain ⟨_, _, hget, hrun⟩ := bind_ok hrun
  cases hget
  obtain ⟨r, w₁, hok, hrun⟩ := bind_ok hrun
  cases hrun
  exact ⟨record.moments _ h.past h.now, record.run _ h.now hok⟩

end Watched

/-- A property that threads have without a past, and that instructions keep, holds at all moments of
every thread that a scheduler can let run. -/
theorem Timeline.records {host : Host W Body} {P : List (Moment W Body) → Thread → Prop}
    (record : Thread.Recorded host P)
    (fresh : ∀ {id script function t}, Thread.start id script function = .ok t → P [] t)
    {x : Watch W Body} (h : Timeline host x) : ∀ y, x.CanRun y → y.Records P := by
  have started : ∀ {id script function t}, Thread.start id script function = .ok t →
      Watched.Records P ⟨t, []⟩ := fun ht => ⟨Thread.beforeEach_nil, fresh ht⟩
  intro y hy
  cases hy with
  | known hmem => exact h.forall_threads (Watched.records_runOne record) started y hmem
  | fresh hstart => exact started hstart

/-! ## The count of open blocks -/

/-- The count of a thread is how many blocks are open, unless it has wrapped around. -/
def Thread.Counted (past : List (Moment W Body)) (t : Thread) : Prop :=
  (∀ m ∈ past, ¬ m.Overflows) → t.waitDepth.toNat = nesting past

/-- That the count of blocks is the nesting of the past, cut to a word, is kept by instructions. -/
theorem Thread.counted_recorded (host : Host W Body) : Recorded host Thread.Counted where
  step {past table t w t' r w'} counted h hold := by
    have shallow := fun m hm => hold m (List.mem_append_left _ hm)
    have here : ¬ Moment.Overflows ⟨t, w, table⟩ := hold _ (by simp)
    have same := counted shallow
    have below := Moment.recount_lt here
    rw [step_depth h, Nat.mod_eq_of_lt below, nesting_concat, ← same]
  resume _ _ counted := counted

/-- A thread that has just been started is counted. -/
theorem Thread.counted_start {id : UInt32} {script : Script} {function : String} {t : Thread}
    (h : Thread.start id script function = .ok t) :
    Thread.Counted ([] : List (Moment W Body)) t := by
  unfold Thread.start at h
  split at h
  · cases h
  · cases h
    exact fun _ => rfl

/-- The count wraps around just when 2 ^ 32 blocks are open for the first time. -/
theorem exists_overflows_iff {ms : List (Moment W Body)} (h : Thread.BeforeEach Thread.Counted ms) :
    (∃ m ∈ ms, m.Overflows) ↔ ∃ l, l <+: ms ∧ nesting l = 2 ^ 32 := by
  constructor
  · induction ms using List.reverseRecOn with
    | nil => simp
    | append_singleton ms m ih =>
      intro hover
      by_cases hearlier : ∃ n ∈ ms, n.Overflows
      · obtain ⟨l, hl, hnesting⟩ := ih (h.restrict (List.prefix_append _ _)) hearlier
        exact ⟨l, hl.trans (List.prefix_append _ _), hnesting⟩
      · -- the first overflow: up to here the count is the nesting
        obtain ⟨n, hn, hover⟩ := hover
        rcases List.mem_append.1 hn with hn | hn
        · exact absurd ⟨n, hn, hover⟩ hearlier
        · rw [List.mem_singleton] at hn
          subst hn
          have same := h ms n (List.prefix_refl _) fun e he hover => hearlier ⟨e, he, hover⟩
          refine ⟨ms ++ [n], List.prefix_refl _, ?_⟩
          rw [nesting_concat, ← same]
          exact Moment.recount_of_overflows hover
  · rintro ⟨l, hl, hnesting⟩
    by_contra hnone
    cases l using List.reverseRecOn with
    | nil => cases hnesting
    | append_singleton past m =>
      have shallow : ∀ n ∈ past ++ [m], ¬ n.Overflows :=
        fun n hn hover => hnone ⟨n, hl.subset hn, hover⟩
      have same := h past m hl fun n hn => shallow n (List.mem_append_left _ hn)
      have below := Moment.recount_lt (shallow m (by simp))
      rw [nesting_concat, ← same] at hnesting
      omega

/-- What is true of the count of open blocks at some moments of a thread: it is the nesting until it
wraps around, it wraps around just when 2 ^ 32 blocks are open, and as many have been opened then.
-/
structure Tallied (ms : List (Moment W Body)) : Prop where
  counts : ∀ past m, past ++ [m] <+: ms → (∀ e ∈ past, ¬ e.Overflows) →
    m.thread.waitDepth.toNat = nesting past
  wraps : (∃ m ∈ ms, m.Overflows) ↔ ∃ l, l <+: ms ∧ nesting l = 2 ^ 32
  opened : (∃ m ∈ ms, m.Overflows) → 2 ^ 32 ≤ ms.countP Moment.opens

/-- Where the count is right before each moment, the moments are tallied. -/
theorem tallied {ms : List (Moment W Body)} (h : Thread.BeforeEach Thread.Counted ms) :
    Tallied ms where
  counts := h
  wraps := exists_overflows_iff h
  opened hover := by
    obtain ⟨l, hl, hnesting⟩ := (exists_overflows_iff h).1 hover
    calc 2 ^ 32 = nesting l := hnesting.symm
      _ ≤ l.countP Moment.opens := nesting_le_countP l
      _ ≤ ms.countP Moment.opens := hl.sublist.countP_le

/-- Opening a block succeeds. -/
theorem Thread.step_beginWait (host : Host W Body) (table : HostTable Body) {t : Thread}
    {next : Nat} (hdec : Instruction.decode t.script.bytecode t.pc = .ok (.beginWait, next)) (w : W) :
    t.step host table w
      = .ok ({ t with pc := next, waitDepth := t.waitDepth + 1 }, .ok .proceed) w := by
  rw [step_of_alone host table hdec (by simp), runExec_eq, execute_beginWait]

/-! ## A thread that only opens blocks -/

/-- A script that opens blocks for ever: `BeginWait`, `Branch 0`. -/
def burrow : Script :=
  { Script.blank "burrow" with
    functions := #[⟨"Main", 0⟩]
    bytecode := #[0x09, 0x06, 0, 0, 0, 0] }

/-- A thread of that script. -/
def burrowerAt (id : UInt32) (pc : Nat) (waitDepth : UInt32) : Thread where
  id
  script := burrow
  function := "Main"
  pc
  stack := .empty
  vars := #[]
  status := .ready
  waitDepth
  waits := []

/-- The thread of that script after `n` instructions, of which every other one opens a block. -/
def burrower (id : UInt32) (n : Nat) : Thread :=
  burrowerAt id (n % 2) (.ofNat ((n + 1) / 2))

section Burrow

variable (host : Host W Body) (table : HostTable Body) (id : UInt32)

/-- The script starts with no block open. -/
theorem start_burrow : Thread.start id burrow "Main" = .ok (burrower id 0) := by
  have offset : burrow.functionOffset? "Main" = some 0 := rfl
  have initial : burrow.vars.map (·.initial) = #[] := by simp [burrow, Script.blank]
  unfold Thread.start
  rw [offset, initial]
  rfl

/-- Two instructions of the loop open one more block and jump back. -/
theorem advance_burrower (n : Nat) (w : W) :
    (burrower id n).advance host table w = .ok (burrower id (n + 1), true) w := by
  have opening : ∀ depth, (burrowerAt id 0 depth).advance host table w
      = .ok (burrowerAt id 1 (depth + 1), true) w := fun _ => rfl
  have branching : ∀ depth, (burrowerAt id 1 depth).advance host table w
      = .ok (burrowerAt id 0 depth, true) w := by
    intro depth
    have hdec : Instruction.decode burrow.bytecode 1 = .ok (.branch 0, 6) := rfl
    have step := Thread.step_of_alone host table (t := burrowerAt id 1 depth) hdec (by simp) w
    exact Thread.advance_proceed (step.trans rfl)
  unfold burrower
  rcases Nat.mod_two_eq_zero_or_one n with even | odd
  · have next : (n + 1) % 2 = 1 := by omega
    have counted : (n + 1 + 1) / 2 = (n + 1) / 2 + 1 := by omega
    rw [even, next, counted, opening, UInt32.ofNat_add]
    rfl
  · have next : (n + 1) % 2 = 0 := by omega
    have counted : (n + 1 + 1) / 2 = (n + 1) / 2 := by omega
    rw [odd, next, counted, branching]

/-- A slice of the run has a moment for each instruction of its budget. -/
theorem mem_momentsFor_burrower {budget i : Nat} (h : i < budget) (n : Nat) (w : W) :
    ⟨burrower id (n + i), w, table⟩ ∈ (burrower id n).momentsFor host table budget w := by
  induction budget generalizing i n with
  | zero => cases h
  | succ budget ih =>
    unfold Thread.momentsFor
    rw [advance_burrower]
    cases i with
    | zero => exact List.mem_cons_self ..
    | succ i =>
      have later := ih (Nat.lt_of_succ_lt_succ h) (n + 1)
      rw [Nat.add_right_comm] at later
      exact List.mem_cons_of_mem _ later

/-- A run opens blocks as long as its budget lasts. -/
theorem runFor_burrower (budget executed n : Nat) (w : W) :
    (burrower id n).runFor host table budget executed w
      = .ok (burrower id (n + budget), executed + budget) w := by
  induction budget generalizing executed n with
  | zero => rfl
  | succ budget ih =>
    have rest := ih (executed + 1) (n + 1)
    rw [Nat.add_right_comm n, Nat.add_right_comm executed] at rest
    exact (bind_of_ok (advance_burrower host table id n w)).trans rest

/-- A run that remembers its moments opens blocks as long as its budget lasts. -/
theorem runOne_burrower (budget n : Nat) (past : List (Moment W Body)) (w : W) :
    Watch.runOne host table budget ⟨burrower id n, past⟩ w
      = .ok ⟨burrower id (n + budget),
        past ++ (burrower id n).momentsFor host table budget w⟩ w := by
  have slice : (burrower id n).run host table budget w
      = .ok (burrower id (n + budget), 0 + budget) w :=
    (Thread.run_ready rfl).1.trans (runFor_burrower host table id budget 0 n w)
  have moments : (burrower id n).moments host table budget w
      = (burrower id n).momentsFor host table budget w := (Thread.run_ready rfl).2
  unfold Watch.runOne
  rw [← moments]
  exact (bind_of_ok rfl).trans (bind_of_ok slice)

end Burrow

/-- A scheduler that has let the thread of the script run `n` instructions in a world. -/
def burrowing (table : HostTable Body) (budget : UInt32) (n : Nat) (past : List (Moment W Body)) :
    Watch W Body :=
  { table, threads := [⟨burrower 1 n, past⟩], budget, nextId := 2 }

/-- A start and some updates let the thread run their budgets. -/
theorem exists_timeline_burrowing (host : Host W Body) (table : HostTable Body) (budget : UInt32)
    (w : W) (updates : Nat) :
    ∃ past, Timeline host (burrowing table budget ((updates + 1) * budget.toNat) past) ∧
      ∀ i < (updates + 1) * budget.toNat, ⟨burrower 1 i, w, table⟩ ∈ past := by
  induction updates with
  | zero =>
    have start : Watch.start host { table, threads := [], budget, nextId := 1 } burrow "Main" w
        = .ok (burrowing table budget (0 + budget.toNat)
          ([] ++ (burrower 1 0).momentsFor host table budget.toNat w)) w := by
      unfold Watch.start
      rw [start_burrow]
      exact bind_of_ok (runOne_burrower host table 1 budget.toNat 0 [] w)
    rw [Nat.zero_add, Nat.one_mul]
    rw [Nat.zero_add] at start
    refine ⟨_, .start (.empty table budget 1) start, fun i hi => ?_⟩
    have mem := mem_momentsFor_burrower host table 1 hi 0 w
    rwa [Nat.zero_add] at mem
  | succ updates ih =>
    obtain ⟨past, timeline, mem⟩ := ih
    have update := runOne_burrower host table 1 budget.toNat ((updates + 1) * budget.toNat) past w
    have updated : Watch.update host (burrowing table budget ((updates + 1) * budget.toNat) past) w
        = .ok (burrowing table budget ((updates + 1) * budget.toNat + budget.toNat) _) w :=
      bind_of_ok ((bind_of_ok update).trans rfl)
    rw [Nat.succ_mul (updates + 1)]
    refine ⟨_, .update timeline updated, fun i hi => ?_⟩
    by_cases hold : i < (updates + 1) * budget.toNat
    · exact List.mem_append_left _ (mem i hold)
    · have hnew : i - (updates + 1) * budget.toNat < budget.toNat := by omega
      have mem := mem_momentsFor_burrower host table 1 hnew ((updates + 1) * budget.toNat) w
      rw [Nat.add_sub_cancel' (Nat.le_of_not_lt hold)] at mem
      exact List.mem_append_right _ mem

/-- On every budget a thread that opens blocks in a loop comes to open one more than can be
counted. -/
theorem burrow_overflows (host : Host W Body) (table : HostTable Body) (budget : UInt32)
    (hb : budget ≠ 0) (w : W) :
    ∃ n past m, Timeline host (burrowing table budget n past) ∧ m ∈ past ∧ m.Overflows := by
  have positive : 1 ≤ budget.toNat :=
    Nat.one_le_iff_ne_zero.2 fun hzero => hb (UInt32.toNat_inj.1 hzero)
  -- every round of the loop is two instructions long and begins with the one that opens a block
  obtain ⟨past, timeline, mem⟩ := exists_timeline_burrowing host table budget w (2 * (2 ^ 32 - 1))
  have enough : 2 * (2 ^ 32 - 1) < (2 * (2 ^ 32 - 1) + 1) * budget.toNat :=
    calc 2 * (2 ^ 32 - 1) < (2 * (2 ^ 32 - 1) + 1) * 1 := by omega
      _ ≤ (2 * (2 ^ 32 - 1) + 1) * budget.toNat := Nat.mul_le_mul_left _ positive
  exact ⟨_, past, _, timeline, mem _ enough, rfl, 1, rfl⟩

/-! ## The main result -/

/-- Open wait blocks are counted in a word. Opening a block always succeeds and counts one more
modulo 2 ^ 32, hence one more unless the instruction overflows. In every thread that a scheduler can
let run, at the moments of the runs so far and of the run that it would make now, in any world and
on any budget, and in every evaluation, the count is the number of open blocks until it wraps
around; it wraps around just when 2 ^ 32 blocks are open for the first time, and only after as many
instructions that open one. An evaluation is never that long. -/
theorem blocks_are_counted_in_a_word (host : Host W Body) :
    (∀ (t : Thread) (table : HostTable Body) (w : W) (next : Nat),
      Instruction.decode t.script.bytecode t.pc = .ok (.beginWait, next) →
        ∃ t', t.step host table w = .ok (t', .ok .proceed) w ∧
          t'.waitDepth.toNat = (t.waitDepth.toNat + 1) % 2 ^ 32 ∧
          (t'.waitDepth.toNat = t.waitDepth.toNat + 1 ↔
            ¬ Moment.Overflows ⟨t, w, table⟩)) ∧
    (∀ x : Watch W Body, Timeline host x → ∀ y, x.CanRun y → ∀ budget w,
      Tallied (y.past ++ y.thread.moments host x.table budget w)) ∧
    ∀ (s : Scheduler Body) (script : Script) (function : String) (w : W),
      Tallied (s.evaluationMoments host script function w) ∧
      ∀ m ∈ s.evaluationMoments host script function w, ¬ m.Overflows := by
  have record := Thread.counted_recorded host
  refine ⟨?_, ?_, ?_⟩
  · intro t table w next hdec
    refine ⟨_, Thread.step_beginWait host table hdec w, UInt32.toNat_add _ _, ?_⟩
    have overflows : Moment.Overflows ⟨t, w, table⟩ ↔ t.waitDepth.toNat = 2 ^ 32 - 1 :=
      ⟨fun h => congrArg UInt32.toNat h.1, fun h => ⟨UInt32.toNat_inj.1 h, next, hdec⟩⟩
    have bound := t.waitDepth.toNat_lt
    rw [overflows, UInt32.toNat_add, UInt32.toNat_one]
    omega
  · intro x hx y hy budget w
    obtain ⟨past, now⟩ := hx.records record Thread.counted_start y hy
    exact tallied (record.moments _ past now)
  · intro s script function w
    have tally : Tallied (s.evaluationMoments host script function w) := by
      unfold Scheduler.evaluationMoments
      split
      · exact tallied Thread.beforeEach_nil
      · rename_i t hstart
        exact tallied (record.momentsToEnd [] Thread.beforeEach_nil (Thread.counted_start hstart))
    refine ⟨tally, fun m hm hover => ?_⟩
    have opened := tally.opened ⟨m, hm, hover⟩
    have short := Scheduler.length_evaluationMoments_le host s script function w
    have fewer : (s.evaluationMoments host script function w).countP Moment.opens
        ≤ (s.evaluationMoments host script function w).length := List.countP_le_length
    have bound := s.budget.toNat_lt
    omega

/-- A script that closes a block before there is one, opens two, closes one and opens another. -/
def stairs : Script :=
  { Script.blank "stairs" with
    functions := #[⟨"Main", 0⟩]
    bytecode := #[0x0A, 0x09, 0x09, 0x0A, 0x09, 0x0B] }

/-- How many blocks are open at some moments by the count of the thread. -/
def depths (ms : List (Moment Bool Unit)) : List Nat :=
  ms.map fun m => m.thread.waitDepth.toNat

/-- The thread climbs the stairs three instructions at a time, and an evaluation does so at once;
one more block than a word can count leaves none. -/
theorem blocks_are_counted_in_a_word_stairs :
    ∃ x y, Timeline doorHost x ∧ x.CanRun y ∧
      depths (y.past ++ y.thread.moments doorHost x.table 3 true) = [0, 0, 1, 2, 1, 2] ∧
      Tallied (y.past ++ y.thread.moments doorHost x.table 3 true) ∧
      depths (doorWatch.scheduler.evaluationMoments doorHost stairs "Main" true)
        = [0, 0, 1, 2, 1, 2] ∧
      (∀ m ∈ doorWatch.scheduler.evaluationMoments doorHost stairs "Main" true, ¬ m.Overflows) ∧
      ∃ t', (burrowerAt 1 0 0xFFFFFFFF).step doorHost doorWatch.table true
          = .ok (t', .ok .proceed) true ∧ t'.waitDepth.toNat = 0 := by
  obtain ⟨steps, runs, evaluations⟩ := blocks_are_counted_in_a_word doorHost
  obtain ⟨x, y, hstart, hthreads, hdepths⟩ :
      ∃ x y, Watch.start doorHost { doorWatch with budget := 3 } stairs "Main" true = .ok x true ∧
        x.threads = [y] ∧
        depths (y.past ++ y.thread.moments doorHost x.table 3 true) = [0, 0, 1, 2, 1, 2] :=
    ⟨_, _, rfl, rfl, rfl⟩
  have timeline : Timeline doorHost x := .start (.empty ..) hstart
  have running : x.CanRun y := .known (by simp [hthreads])
  obtain ⟨t', hstep, hdepth, -⟩ := steps (burrowerAt 1 0 0xFFFFFFFF) doorWatch.table true 1 rfl
  exact ⟨x, y, timeline, running, hdepths, runs x timeline y running 3 true, rfl,
    (evaluations doorWatch.scheduler stairs "Main" true).2, t', hstep, hdepth⟩

/-- Opening a block does not always count one more: nothing bounds how many blocks a thread opens,
and from the largest word the count wraps around to zero. -/
theorem open_blocks_may_be_lost :
    ¬ ∀ x : Watch Bool Unit, Timeline doorHost x → ∀ y ∈ x.threads, ∀ m ∈ y.past,
      m.opens = true → ∀ t' r w', m.thread.step doorHost m.table m.world = .ok (t', r) w' →
        t'.waitDepth.toNat = m.thread.waitDepth.toNat + 1 := by
  intro counts
  obtain ⟨n, past, m, timeline, hm, hmax, next, hdec⟩ :=
    burrow_overflows doorHost doorWatch.table Scheduler.defaultBudget (by decide) false
  have step := Thread.step_beginWait doorHost m.table hdec m.world
  have more := counts _ timeline _ (List.mem_singleton.2 rfl) m hm (Moment.opens_iff.2 ⟨next, hdec⟩)
    _ _ _ step
  rw [hmax] at more
  cases more

end SheepScene
