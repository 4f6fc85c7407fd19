import Mathlib.Data.List.Nodup
import SheepScene.Proofs.Machine.Slices

/-!
# The books of a scheduler

A scheduler is used by calls: threads are started, updated and stopped, each time in whatever world
there is. Threads get the numbers from one on in the order in which they are started
(`Scheduler.Numbered`), so no number is given twice as long as they do not run out; an update runs
the threads that have not ended in turn (`Scheduler.InTurn`) and forgets the others. What an ended
thread leaves can be inspected up to the next update, and a stop concerns one thread only. The main
result is `schedulers_keep_their_books`.
-/

set_option autoImplicit false

namespace SheepScene

variable {W Body : Type}

namespace Scheduler

/-- A call on a scheduler, and what it answered. -/
inductive Call where
  | started (id : UInt32)
  | refused (e : ScriptError)
  | updated
  | stopped (id : UInt32)

def Call.issued? : Call → Option UInt32
  | .started id => some id
  | _ => none

/-- The numbers that calls gave to threads. -/
def issued (calls : List Call) : List UInt32 :=
  calls.filterMap Call.issued?

/-- The numbers issued by calls are those of the earlier ones and then those of the later ones. -/
theorem issued_append (calls later : List Call) :
    issued (calls ++ later) = issued calls ++ issued later :=
  List.filterMap_append

/-- Whether a call makes a scheduler forget the thread of a number, if that thread has ended. -/
def Call.forgets (id : UInt32) : Call → Prop
  | .updated => True
  | .stopped other => other = id
  | _ => False

instance (id : UInt32) : DecidablePred (Call.forgets id)
  | .updated => .isTrue trivial
  | .stopped other => inferInstanceAs (Decidable (other = id))
  | .started _ | .refused _ => .isFalse fun forgets => forgets

/-- A call takes a scheduler to another, in some world. A call that ends in a fault takes it
nowhere. -/
inductive Takes (host : Host W Body) : Scheduler Body → Call → Scheduler Body → Prop where
  | started {s script function w id s' w'} :
      s.start host script function w = .ok (.ok id, s') w' → Takes host s (.started id) s'
  | refused {s script function w e s' w'} :
      s.start host script function w = .ok (.error e, s') w' → Takes host s (.refused e) s'
  | updated {s w s' w'} : s.update host w = .ok s' w' → Takes host s .updated s'
  | stopped (s id) : Takes host s (.stopped id) (s.stop id).2

/-- Calls take a scheduler to another, one after the other. -/
inductive Course (host : Host W Body) (s : Scheduler Body) : List Call → Scheduler Body → Prop where
  | here : Course host s [] s
  | call {calls s' call s''} : Course host s calls s' → Takes host s' call s'' →
      Course host s (calls ++ [call]) s''

/-- Threads run in turn, each once and from the world that the one before leaves. -/
inductive InTurn (host : Host W Body) (table : HostTable Body) (budget : Nat) :
    List Thread → W → List Thread → W → Prop where
  | nil (w) : InTurn host table budget [] w [] w
  | cons {t w t' n w₁ rest rest' w'} : t.run host table budget w = .ok (t', n) w₁ →
      InTurn host table budget rest w₁ rest' w' →
      InTurn host table budget (t :: rest) w (t' :: rest') w'

variable {host : Host W Body}

/-! ## The calls -/

section Calls

variable {s s' : Scheduler Body} {script : Script} {function : String} {w w' : W}

/-- Starting a function that a script does not have changes nothing. -/
theorem start_unknown (h : script.functionOffset? function = none) :
    s.start host script function w = .ok (.error (.unknownFunction function), s) w := by
  unfold start Thread.start
  rw [h]
  rfl

/-- An error at the start means that there is no such function, and that nothing has changed. -/
theorem of_start_error {e : ScriptError}
    (h : s.start host script function w = .ok (.error e, s') w') :
    script.functionOffset? function = none ∧ e = .unknownFunction function ∧ s' = s ∧ w' = w := by
  cases hoffset : script.functionOffset? function with
  | none =>
    rw [start_unknown hoffset] at h
    cases h
    exact ⟨rfl, rfl, rfl, rfl⟩
  | some offset =>
    unfold start Thread.start at h
    rw [hoffset] at h
    obtain ⟨r, w₁, hrun, hrest⟩ := bind_ok h
    cases hrest

/-- A start that succeeds runs a new thread under the next number and keeps it as the last one. -/
theorem of_start_ok {id : UInt32} (h : s.start host script function w = .ok (.ok id, s') w') :
    ∃ t t' n, Thread.start s.nextId script function = .ok t ∧
      t.run host s.table s.budget.toNat w = .ok (t', n) w' ∧ id = s.nextId ∧ t'.id = id ∧
      s' = { s with threads := s.threads.push t', nextId := s.nextId + 1 } := by
  unfold start at h
  cases hstart : Thread.start s.nextId script function with
  | error e =>
    rw [hstart] at h
    cases h
  | ok t =>
    rw [hstart] at h
    obtain ⟨⟨t', n⟩, w₁, hrun, hrest⟩ := bind_ok h
    cases hrest
    have numbered : t.id = s.nextId := by
      unfold Thread.start at hstart
      split at hstart
      · cases hstart
      · cases hstart
        rfl
    exact ⟨t, t', n, rfl, hrun, (Thread.run_id hrun).trans numbered, rfl, rfl⟩

/-- To run threads one after the other is to run them in turn. -/
theorem inTurn_iff {table : HostTable Body} {budget : Nat} {l l' : List Thread} :
    runAll host table budget l w = .ok l' w' ↔ InTurn host table budget l w l' w' := by
  constructor
  · intro h
    induction l generalizing w l' with
    | nil =>
      cases h
      exact .nil _
    | cons t rest ih =>
      obtain ⟨⟨t', n⟩, w₁, hrun, hrest⟩ := bind_ok h
      obtain ⟨rest', w₂, hall, hrest⟩ := bind_ok hrest
      cases hrest
      exact .cons hrun (ih hall)
  · intro h
    induction h with
    | nil w => rfl
    | cons hrun _ ih => exact (bind_of_ok hrun).trans (bind_of_ok ih)

/-- Threads that run in turn keep their numbers. -/
theorem InTurn.ids {table : HostTable Body} {budget : Nat} {l l' : List Thread} {w w' : W}
    (h : InTurn host table budget l w l' w') :
    l'.map (fun t => t.id) = l.map (fun t => t.id) := by
  induction h with
  | nil w => rfl
  | cons hrun _ ih => rw [List.map_cons, List.map_cons, ih, Thread.run_id hrun]

/-- The threads that have not ended, in the order of their start. -/
def live (s : Scheduler Body) : List Thread :=
  s.threads.toList.filter fun t => !t.isDone

/-- An update runs the live threads in turn, and changes nothing but the threads. -/
theorem update_iff : s.update host w = .ok s' w' ↔
    InTurn host s.table s.budget.toNat s.live w s'.threads.toList w' ∧
      s' = { s with threads := s'.threads } := by
  have filtered : (s.threads.filter fun t => !t.isDone).toList = s.live := by
    unfold live
    simp
  unfold update
  rw [filtered]
  constructor
  · intro h
    obtain ⟨threads, w₁, hall, hrest⟩ := bind_ok h
    cases hrest
    exact ⟨inTurn_iff.1 hall, rfl⟩
  · rintro ⟨hturn, hs'⟩
    rw [hs']
    exact bind_of_ok (inTurn_iff.2 hturn)

/-- The threads after an update are those that had not ended before it, by their numbers. -/
theorem mem_update (h : s.update host w = .ok s' w') {u : Thread} (hu : u ∈ s'.threads) :
    ∃ t ∈ s.threads, t.isDone = false ∧ t.id = u.id := by
  have turn := (update_iff.1 h).1
  have hmem : u.id ∈ s.live.map fun t => t.id := by
    rw [← turn.ids]
    exact List.mem_map_of_mem (Array.mem_def.1 hu)
  obtain ⟨t, ht, hid⟩ := List.mem_map.1 hmem
  obtain ⟨ht, hlive⟩ := List.mem_filter.1 ht
  exact ⟨t, Array.mem_def.2 ht, by simpa using hlive, hid⟩

end Calls

/-! ## Numbers -/

/-- The numbers `ids` have been given to threads, from one on without a gap; the threads that a
scheduler has are some of these, in the same order, and the next number is the one that follows. -/
structure Numbered (ids : List UInt32) (s : Scheduler Body) : Prop where
  dense : ids.map UInt32.toNat = List.range' 1 ids.length
  threads : (s.threads.toList.map fun t => t.id).Sublist ids
  next : s.nextId.toNat = ids.length + 1

namespace Numbered

variable {ids : List UInt32} {s s' : Scheduler Body}

/-- Numbers are issued in increasing order. -/
theorem increasing (h : Numbered ids s) : ids.Pairwise (· < ·) := by
  have ordered : (ids.map UInt32.toNat).Pairwise (· < ·) := by
    rw [h.dense]
    exact List.pairwise_lt_range'
  rw [List.pairwise_map] at ordered
  exact ordered

/-- The threads are in the order of their numbers. -/
theorem threads_increasing (h : Numbered ids s) :
    s.threads.toList.Pairwise fun t t' => t.id < t'.id :=
  List.pairwise_map.1 (h.increasing.sublist h.threads)

/-- The next number has not been issued before. -/
theorem nextId_fresh (h : Numbered ids s) : s.nextId ∉ ids := by
  intro hmem
  have hrange : s.nextId.toNat ∈ List.range' 1 ids.length := by
    rw [← h.dense]
    exact List.mem_map_of_mem hmem
  have hnext := h.next
  have hbound := List.mem_range'_1.1 hrange
  omega

/-- The number of every thread has been issued. -/
theorem mem_ids (h : Numbered ids s) {t : Thread} (ht : t ∈ s.threads) : t.id ∈ ids :=
  h.threads.subset (List.mem_map_of_mem (Array.mem_def.1 ht))

/-- No two threads have the same number. -/
theorem unique (h : Numbered ids s) {t u : Thread} (ht : t ∈ s.threads) (hu : u ∈ s.threads)
    (same : u.id = t.id) : u = t := by
  have distinct : (s.threads.toList.map fun t => t.id).Nodup :=
    (h.increasing.sublist h.threads).imp fun hlt heq => by
      rw [heq] at hlt
      exact absurd hlt (UInt32.lt_irrefl _)
  exact List.inj_on_of_nodup_map distinct (Array.mem_def.1 hu) (Array.mem_def.1 ht) same

/-- Every thread is found under its number. -/
theorem thread?_eq_some (h : Numbered ids s) {t : Thread} (ht : t ∈ s.threads) :
    s.thread? t.id = some t := by
  cases hfound : s.thread? t.id with
  | none =>
    have absent := Array.find?_eq_none.1 hfound t ht
    simp at absent
  | some u =>
    have hmem : u ∈ s.threads := Array.mem_of_find?_eq_some hfound
    have hid : u.id = t.id := by simpa using Array.find?_some hfound
    rw [h.unique ht hmem hid]

/-- Forgetting threads keeps the books. -/
theorem fewer (h : Numbered ids s) (next : s'.nextId = s.nextId)
    (kept : (s'.threads.toList.map fun t => t.id).Sublist (s.threads.toList.map fun t => t.id)) :
    Numbered ids s' := by
  refine ⟨h.dense, kept.trans h.threads, ?_⟩
  rw [next]
  exact h.next

/-- A further thread is entered under the next number, if the numbers do not run out. -/
theorem push (h : Numbered ids s) {t : Thread} (hid : t.id = s.nextId)
    (few : (ids ++ [s.nextId]).length < UInt32.size - 1) :
    Numbered (ids ++ [s.nextId])
      { s with threads := s.threads.push t, nextId := s.nextId + 1 } := by
  have length : (ids ++ [s.nextId]).length = ids.length + 1 := by
    rw [List.length_append, List.length_singleton]
  rw [length] at few
  refine ⟨?_, ?_, ?_⟩
  · rw [length, List.map_append, h.dense, List.map_singleton, h.next, List.range'_concat,
      Nat.one_mul, Nat.add_comm 1]
  · rw [Array.toList_push, List.map_append, List.map_singleton, hid]
    exact h.threads.append (List.Sublist.refl _)
  · have hsum : (s.nextId + 1).toNat = s.nextId.toNat + 1 := by
      rw [UInt32.toNat_add, h.next]
      refine Nat.mod_eq_of_lt ?_
      change ids.length + 1 + 1 < UInt32.size
      omega
    rw [length, ← h.next]
    exact hsum

/-- A call keeps the books. -/
theorem call {call : Call} (h : Numbered ids s) (takes : Takes host s call s')
    (few : (ids ++ issued [call]).length < UInt32.size - 1) :
    Numbered (ids ++ issued [call]) s' := by
  cases takes with
  | started hstart =>
    obtain ⟨t, t', n, -, -, rfl, hid, rfl⟩ := of_start_ok hstart
    exact h.push hid few
  | refused hstart =>
    obtain ⟨-, -, rfl, -⟩ := of_start_error hstart
    change Numbered (ids ++ []) _
    rwa [List.append_nil]
  | updated hupdate =>
    obtain ⟨turn, hs'⟩ := update_iff.1 hupdate
    have kept : (s.live.map fun t => t.id).Sublist (s.threads.toList.map fun t => t.id) :=
      List.filter_sublist.map _
    rw [← turn.ids] at kept
    have next : s'.nextId = s.nextId := by rw [hs']
    change Numbered (ids ++ []) _
    rw [List.append_nil]
    exact h.fewer next kept
  | stopped id =>
    have kept : ((s.stop id).2.threads.toList.map fun t => t.id).Sublist
        (s.threads.toList.map fun t => t.id) := by
      unfold stop
      rw [Array.toList_filter]
      exact List.filter_sublist.map _
    change Numbered (ids ++ []) _
    rw [List.append_nil]
    exact h.fewer rfl kept

/-- A scheduler keeps its numbers in order over a course of calls, as long as few are issued. -/
theorem course {calls : List Call} (h : Numbered ids s) (run : Course host s calls s')
    (few : (ids ++ issued calls).length < UInt32.size - 1) : Numbered (ids ++ issued calls) s' := by
  induction run with
  | here => simpa [issued] using h
  | @call calls s₁ call s₂ _ takes ih =>
    rw [issued_append, ← List.append_assoc] at few ⊢
    have few₁ : (ids ++ issued calls).length < UInt32.size - 1 := by
      rw [List.length_append] at few
      omega
    exact (ih few₁).call takes few

end Numbered

/-- A new scheduler has issued no numbers. -/
theorem numbered_ofTable (table : HostTable Body) (budget : UInt32) :
    Numbered [] { Scheduler.ofTable table with budget } :=
  ⟨rfl, List.Sublist.refl _, rfl⟩

/-! ## What is left of a thread that has ended -/

section Ended

variable {ids : List UInt32} {s s' : Scheduler Body} {t : Thread}

/-- A number that has been issued and whose thread has gone is not given to another thread. -/
theorem Takes.gone {call : Call} (takes : Takes host s call s') (books : Numbered ids s)
    {id : UInt32} (given : id ∈ ids) (gone : ∀ u ∈ s.threads, u.id ≠ id) :
    ∀ u ∈ s'.threads, u.id ≠ id := by
  cases takes with
  | @started script function w other _ w' hstart =>
    obtain ⟨t, t', n, -, -, hnext, hid, rfl⟩ := of_start_ok hstart
    intro u hu
    rcases Array.mem_push.1 hu with hu | rfl
    · exact gone u hu
    · rw [hid, hnext]
      rintro rfl
      exact books.nextId_fresh given
  | refused hstart =>
    obtain ⟨-, -, rfl, -⟩ := of_start_error hstart
    exact gone
  | updated hupdate =>
    intro u hu
    obtain ⟨v, hv, -, hid⟩ := mem_update hupdate hu
    rw [← hid]
    exact gone v hv
  | stopped other => exact fun u hu => gone u (Array.mem_filter.1 hu).1

/-- A thread that has ended is as it was after any call but those that forget it, and after those it
is gone. -/
theorem Takes.ended {call : Call} (takes : Takes host s call s') (books : Numbered ids s)
    (ht : t ∈ s.threads) (ended : t.isDone = true) :
    (call.forgets t.id → ∀ u ∈ s'.threads, u.id ≠ t.id) ∧
      (¬ call.forgets t.id → t ∈ s'.threads) := by
  cases takes with
  | started hstart =>
    obtain ⟨_, t', n, -, -, -, -, rfl⟩ := of_start_ok hstart
    exact ⟨fun hforgets => hforgets.elim, fun _ => Array.mem_push.2 (.inl ht)⟩
  | refused hstart =>
    obtain ⟨-, -, rfl, -⟩ := of_start_error hstart
    exact ⟨fun hforgets => hforgets.elim, fun _ => ht⟩
  | updated hupdate =>
    refine ⟨fun _ u hu same => ?_, fun hkeeps => absurd trivial hkeeps⟩
    obtain ⟨v, hv, hlive, hid⟩ := mem_update hupdate hu
    rw [books.unique ht hv (hid.trans same), ended] at hlive
    cases hlive
  | stopped other =>
    refine ⟨fun hforgets u hu => ?_, fun hkeeps => ?_⟩
    · have hne := (Array.mem_filter.1 hu).2
      rw [show other = t.id from hforgets] at hne
      simpa using hne
    · refine Array.mem_filter.2 ⟨ht, ?_⟩
      have hne : ¬ other = t.id := hkeeps
      exact bne_iff_ne.2 fun same => hne same.symm

/-- Over a course of calls, a thread that has ended stays as it was until a call forgets it, and is
gone from then on. -/
theorem Course.ended {calls : List Call} (run : Course host s calls s') (books : Numbered ids s)
    (few : (ids ++ issued calls).length < UInt32.size - 1) (ht : t ∈ s.threads)
    (ended : t.isDone = true) :
    ((∃ call ∈ calls, call.forgets t.id) → ∀ u ∈ s'.threads, u.id ≠ t.id) ∧
      ((∀ call ∈ calls, ¬ call.forgets t.id) → t ∈ s'.threads) := by
  induction run with
  | here => exact ⟨by simp, fun _ => ht⟩
  | @call calls s₁ call s₂ run takes ih =>
    rw [issued_append, ← List.append_assoc] at few
    have few₁ : (ids ++ issued calls).length < UInt32.size - 1 := by
      rw [List.length_append] at few
      omega
    obtain ⟨hgone, hkept⟩ := ih few₁
    have books₁ := books.course run few₁
    have given : t.id ∈ ids ++ issued calls := List.mem_append_left _ (books.mem_ids ht)
    constructor
    · -- a thread that was gone before the last call stays gone: its number is not given again
      rintro ⟨c, hc, hforgets⟩
      by_cases before : ∃ c ∈ calls, c.forgets t.id
      · exact takes.gone books₁ given (hgone before)
      · have kept : t ∈ s₁.threads := hkept fun c hc hforgets => before ⟨c, hc, hforgets⟩
        rcases List.mem_append.1 hc with hc | hc
        · exact absurd ⟨c, hc, hforgets⟩ before
        · rw [List.mem_singleton] at hc
          subst hc
          exact (takes.ended books₁ kept ended).1 hforgets
    · intro hkeeps
      have kept : t ∈ s₁.threads := hkept fun c hc => hkeeps c (List.mem_append_left _ hc)
      exact (takes.ended books₁ kept ended).2 (hkeeps call (by simp))

end Ended

/-! ## Order -/

/-- A stopped thread is not found any more, and all others are as before. -/
theorem thread?_stop (s : Scheduler Body) (id other : UInt32) :
    (s.stop id).2.thread? other = if other = id then none else s.thread? other := by
  unfold stop thread?
  rw [Array.find?_filter]
  by_cases same : other = id
  · subst same
    rw [if_pos rfl]
    simp
  · rw [if_neg same]
    congr 1
    funext t
    by_cases hid : t.id = other
    · subst hid
      simp [same]
    · simp [hid]

/-- Stopping says whether the thread was there. -/
theorem stop_fst (s : Scheduler Body) (id : UInt32) :
    (s.stop id).1 = (s.thread? id).isSome := by
  have all : (s.threads.filter fun t => t.id != id).size = s.threads.size ↔
      ∀ t ∈ s.threads, t.id ≠ id := by
    have listed : (s.threads.filter fun t => t.id != id).size
        = (s.threads.toList.filter fun t => t.id != id).length := by
      rw [← Array.toList_filter, Array.length_toList]
    rw [listed, ← Array.length_toList, List.length_filter_eq_length_iff]
    simp
  have found : (s.thread? id).isSome = true ↔ ∃ t ∈ s.threads, t.id = id := by
    unfold thread?
    rw [Array.find?_isSome]
    simp
  rw [Bool.eq_iff_iff, found]
  unfold stop
  rw [bne_iff_ne, ne_eq, all]
  simp

/-- What is in order about a scheduler that has come about by `calls`. -/
structure Orderly (host : Host W Body) (calls : List Call) (s : Scheduler Body) : Prop where
  /-- Threads are in the order of their numbers, which differ. -/
  increasing : s.threads.toList.Pairwise fun t t' => t.id < t'.id
  /-- Every number that was given was larger than those given before it. -/
  fresh : (issued calls).Pairwise (· < ·)
  /-- A thread that is started gets a number that has not been given before, runs for a first time,
  and can be inspected. -/
  started : ∀ {script function w id s' w'}, s.start host script function w = .ok (.ok id, s') w' →
    id ∉ issued calls ∧ ∃ t t' n, Thread.start id script function = .ok t ∧
      t.run host s.table s.budget.toNat w = .ok (t', n) w' ∧
      s' = { s with threads := s.threads.push t', nextId := id + 1 } ∧ s'.thread? id = some t'
  /-- A start fails where there is no such function, only there, and without a trace. -/
  refused : ∀ {script function w e s' w'},
    s.start host script function w = .ok (.error e, s') w' ↔
      script.functionOffset? function = none ∧ e = .unknownFunction function ∧ s' = s ∧ w' = w
  /-- An update runs the threads that have not ended in turn, and forgets the others. -/
  updated : ∀ {w s' w'}, s.update host w = .ok s' w' ↔
    InTurn host s.table s.budget.toNat s.live w s'.threads.toList w' ∧
      s' = { s with threads := s'.threads }
  /-- A stop removes the thread of its number, says whether there is one, and leaves the others. -/
  stopped : ∀ id, s.stop id
      = ((s.thread? id).isSome, { s with threads := s.threads.filter fun t => t.id != id }) ∧
    ∀ other, (s.stop id).2.thread? other = if other = id then none else s.thread? other
  /-- A thread that has ended can be inspected, as it is, until it is forgotten by an update or a
  stop, and not from then on. -/
  ended : ∀ {t}, t ∈ s.threads → t.isDone = true → ∀ {later s'}, Course host s later s' →
    (issued (calls ++ later)).length < UInt32.size - 1 →
    s'.thread? t.id = if ∃ call ∈ later, call.forgets t.id then none else some t

/-- Where the numbers are in order, so are the books. -/
theorem Numbered.orderly {calls : List Call} {s : Scheduler Body}
    (books : Numbered (issued calls) s) (host : Host W Body) : Orderly host calls s where
  increasing := books.threads_increasing
  fresh := books.increasing
  started hstart := by
    obtain ⟨t, t', n, hthread, hrun, rfl, hid, rfl⟩ := of_start_ok hstart
    refine ⟨books.nextId_fresh, t, t', n, hthread, hrun, rfl, ?_⟩
    have absent : s.thread? s.nextId = none := by
      refine Array.find?_eq_none.2 fun u hu => ?_
      have given := books.mem_ids hu
      intro same
      rw [show u.id = s.nextId by simpa using same] at given
      exact books.nextId_fresh given
    unfold thread? at absent ⊢
    rw [Array.find?_push, absent, hid]
    simp
  refused {script function w e s' w'} := by
    constructor
    · exact of_start_error
    · rintro ⟨hoffset, rfl, rfl, rfl⟩
      exact start_unknown hoffset
  updated := update_iff
  stopped id := ⟨Prod.ext (stop_fst s id) rfl, thread?_stop s id⟩
  ended {t} ht ended {later s'} run few := by
    rw [issued_append] at few
    obtain ⟨hgone, hkept⟩ := run.ended books few ht ended
    split
    · rename_i hforgets
      refine Array.find?_eq_none.2 fun u hu => ?_
      simpa using hgone hforgets u hu
    · rename_i hkeeps
      have kept : t ∈ s'.threads := hkept fun call hcall hforgets => hkeeps ⟨call, hcall, hforgets⟩
      exact (books.course run few).thread?_eq_some kept

end Scheduler

/-- Schedulers keep their books. Whatever calls have been made on a scheduler, as long as the
numbers do not run out, its threads, live and ended, are in the order of their numbers, and what
further starts, updates and stops do to them is in order. -/
theorem schedulers_keep_their_books {host : Host W Body} {table : HostTable Body} {budget : UInt32}
    {calls : List Scheduler.Call} {s : Scheduler Body}
    (run : Scheduler.Course host { Scheduler.ofTable table with budget } calls s)
    (few : (Scheduler.issued calls).length < UInt32.size - 1) : s.Orderly host calls := by
  have books := (Scheduler.numbered_ofTable table budget).course run (by simpa using few)
  rw [List.nil_append] at books
  exact books.orderly host

/-- A scheduler for scripts that knock, which has been used. -/
def porter (threads : Array Thread) (nextId : UInt32) : Scheduler Unit where
  table := doorWatch.table
  threads
  budget := 10
  nextId

/-- A thread at the end of the block of the script that knocks, or behind it. -/
def knocker (id : UInt32) (pc : Nat) (status : ThreadStatus) (waits : List WaitHandle) :
    Thread where
  id
  script := knock
  function := "Main"
  pc
  stack := ⟨#[.int 0], by decide⟩
  vars := knock.vars.map (·.initial)
  status
  waitDepth := 0
  waits

/-- One that waits in front of a shut door, and another that has gone through the open door. -/
def porterOfTwo : Scheduler Unit :=
  porter #[knocker 1 12 .waiting [.named 1], knocker 2 13 .finished []] 3

/-- The first thread of the porter waits in front of the shut door. -/
theorem start_porter : (porter #[] 1).start doorHost knock "Main" false
    = .ok (.ok 1, porter #[knocker 1 12 .waiting [.named 1]] 2) false :=
  rfl

/-- When the thread that waits is stopped, the one that has ended is left as it is, up to the next
update. -/
theorem schedulers_keep_their_books_doors :
    Scheduler.Course doorHost { Scheduler.ofTable doorWatch.table with budget := 10 }
        [.started 1, .refused (.unknownFunction "Side"), .started 2] porterOfTwo ∧
      porterOfTwo.stop 1 = (true, porter #[knocker 2 13 .finished []] 3) ∧
      (porter #[knocker 2 13 .finished []] 3).thread? 2 = some (knocker 2 13 .finished []) ∧
      (porter #[knocker 2 13 .finished []] 3).update doorHost false = .ok (porter #[] 3) false ∧
      (porter #[] 3).thread? 2 = none := by
  have side : (porter #[knocker 1 12 .waiting [.named 1]] 2).start doorHost knock "Side" false
      = .ok (.error (.unknownFunction "Side"), porter #[knocker 1 12 .waiting [.named 1]] 2)
        false := rfl
  have second : (porter #[knocker 1 12 .waiting [.named 1]] 2).start doorHost knock "Main" true
      = .ok (.ok 2, porterOfTwo) true := rfl
  have run : Scheduler.Course doorHost { Scheduler.ofTable doorWatch.table with budget := 10 }
      [.started 1, .refused (.unknownFunction "Side"), .started 2] porterOfTwo :=
    .call (.call (.call .here (.started start_porter)) (.refused side)) (.started second)
  have orderly := schedulers_keep_their_books run (by decide)
  have update : (porter #[knocker 2 13 .finished []] 3).update doorHost false
      = .ok (porter #[] 3) false := rfl
  have stopped : Scheduler.Course doorHost porterOfTwo [.stopped 1]
      (porter #[knocker 2 13 .finished []] 3) := .call .here (.stopped porterOfTwo 1)
  have forgotten : Scheduler.Course doorHost porterOfTwo [.stopped 1, .updated] (porter #[] 3) :=
    .call stopped (.updated update)
  have ended : knocker 2 13 .finished [] ∈ porterOfTwo.threads := by simp [porterOfTwo, porter]
  have kept := orderly.ended ended rfl stopped (by decide)
  have gone := orderly.ended ended rfl forgotten (by decide)
  exact ⟨run, rfl, kept.trans (if_neg (by decide)), update, gone.trans (if_pos (by decide))⟩

end SheepScene
