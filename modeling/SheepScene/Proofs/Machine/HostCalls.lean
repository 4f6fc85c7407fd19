import SheepScene.Proofs.Machine.Boundaries
import SheepScene.Proofs.Machine.Operands

/-!
# The convention of host calls

A script calls a host function with its arguments on the stack, in order, and their count on top.
`Script.Calls` says when the function is called and on which values: it is found, the count is the
one it declares, and every argument converts to its declared kind. `callArguments_spec` relates the
instruction to that. A host that keeps a list of its calls (`Host.recorded`) shows that a function
is called exactly then, and once (`host_calls_follow_convention`).
-/

set_option autoImplicit false

namespace SheepScene

variable {W Body : Type}

/-! ## Conversions -/

namespace Value

variable {strings : Array String}

/-- A value stands for a value of a kind: numbers convert into each other, and an offset stands for
its text. -/
inductive Converts (strings : Array String) : Value → Kind → Value → Prop where
  | int (n : Int32) : Converts strings (.int n) .int (.int n)
  | truncated (x : Float32) : Converts strings (.float x) .int (.int (Binary32.toInt32 x))
  | widened (n : Int32) : Converts strings (.int n) .float (.float (Binary32.ofInt32 n))
  | float (x : Float32) : Converts strings (.float x) .float (.float x)
  | text (s : String) : Converts strings (.string s) .string (.string s)
  | resolved {i : UInt32} {s : String} (h : strings[i.toNat]? = some s) :
    Converts strings (.offset i) .string (.string s)

/-- Values stand for values of the kinds of a list, one by one. -/
inductive Converted (strings : Array String) : List Value → List Kind → List Value → Prop where
  | nil : Converted strings [] [] []
  | cons {v v' : Value} {kind : Kind} {raw args : List Value} {kinds : List Kind}
    (first : Converts strings v kind v') (rest : Converted strings raw kinds args) :
    Converted strings (v :: raw) (kind :: kinds) (v' :: args)

/-- To coerce a value is to convert it as the kinds say. -/
theorem coerce_eq_ok_iff (pc : Nat) (operation : String) {kind : Kind} {v v' : Value} :
    v.coerce strings pc operation kind = .ok v' ↔ Converts strings v kind v' := by
  constructor
  · intro h
    cases kind <;> cases v <;> simp only [coerce, toInt?, toFloat?, isString, Value.kind] at h
    all_goals try cases h
    · exact .int _
    · exact .truncated _
    · exact .widened _
    · exact .float _
    · rename_i i
      cases hs : strings[i.toNat]? with
      | none => simp [toText, hs, Except.map] at h
      | some s =>
        simp only [toText, hs] at h
        cases h
        exact .resolved hs
    · exact .text _
  · rintro (_ | _ | _ | _ | _ | h) <;> try rfl
    simp [coerce, isString, Value.kind, toText, h, Except.map]

/-- A converted value is of the kind that was asked for, and is no reference to a string. -/
theorem Converts.kind {v v' : Value} {kind : Kind} (h : Converts strings v kind v') :
    v'.kind = kind ∧ ∀ i, v' ≠ .offset i := by
  cases h <;> exact ⟨rfl, nofun⟩

/-- A value is converted in one way only. -/
theorem Converts.unique {v v₁ v₂ : Value} {kind : Kind} (h₁ : Converts strings v kind v₁)
    (h₂ : Converts strings v kind v₂) : v₁ = v₂ :=
  Except.ok.inj (((coerce_eq_ok_iff 0 "").2 h₁).symm.trans ((coerce_eq_ok_iff 0 "").2 h₂))

/-- As many values come out as there are kinds. -/
theorem Converted.length {raw args : List Value} {kinds : List Kind}
    (h : Converted strings raw kinds args) : raw.length = kinds.length := by
  induction h with
  | nil => rfl
  | cons _ _ ih => simp [ih]

/-- Converted values are of the declared kinds, and none is a reference to a string. -/
theorem Converted.kinds {raw args : List Value} {kinds : List Kind}
    (h : Converted strings raw kinds args) :
    args.map Value.kind = kinds ∧ ∀ i, .offset i ∉ args := by
  induction h with
  | nil => simp
  | cons first _ ih =>
    refine ⟨by rw [List.map_cons, first.kind.1, ih.1], fun i hi => ?_⟩
    rcases List.mem_cons.1 hi with rfl | hi
    · exact first.kind.2 i rfl
    · exact ih.2 i hi

/-- Values are converted in one way only. -/
theorem Converted.unique {raw args₁ args₂ : List Value} {kinds : List Kind}
    (h₁ : Converted strings raw kinds args₁) (h₂ : Converted strings raw kinds args₂) :
    args₁ = args₂ := by
  induction h₁ generalizing args₂ with
  | nil =>
    cases h₂
    rfl
  | cons first _ ih =>
    cases h₂ with
    | cons first' rest' => rw [first.unique first', ih rest']

/-- To coerce values one by one is to convert all of them. -/
theorem coerceAll_eq_ok_iff {pc : Nat} {operation : String} {raw args : List Value}
    {kinds : List Kind} (h : raw.length = kinds.length) :
    ((raw.zip kinds).mapM fun (v, kind) => v.coerce strings pc operation kind) = .ok args ↔
      Converted strings raw kinds args := by
  induction raw generalizing kinds args with
  | nil =>
    cases kinds with
    | nil =>
      constructor
      · rintro ⟨⟩
        exact .nil
      · rintro ⟨⟩
        rfl
    | cons kind kinds => cases h
  | cons v raw ih =>
    cases kinds with
    | nil => cases h
    | cons kind kinds =>
      have ih := fun args => @ih args kinds (Nat.succ.inj h)
      rw [List.zip_cons_cons, List.mapM_cons]
      dsimp only
      constructor
      · intro hrun
        cases hfirst : v.coerce strings pc operation kind with
        | error e =>
          rw [hfirst] at hrun
          cases hrun
        | ok v' =>
          rw [hfirst] at hrun
          cases hrest : (raw.zip kinds).mapM
              fun (v, kind) => v.coerce strings pc operation kind with
          | error e =>
            rw [hrest] at hrun
            cases hrun
          | ok args =>
            rw [hrest] at hrun
            cases hrun
            exact .cons ((coerce_eq_ok_iff ..).1 hfirst) ((ih _).1 hrest)
      · rintro (_ | ⟨first, rest⟩)
        rw [(coerce_eq_ok_iff ..).2 first, (ih _).2 rest]
        rfl

end Value

/-! ## Finding the function and its arguments -/

/-- A table finds a function of the name in any case, if it has one. -/
theorem HostTable.find?_spec (table : HostTable Body) (name : String) :
    match table.find? name with
    | some f => f ∈ table.functions ∧ Text.folded f.name = Text.folded name
    | none => ∀ f ∈ table.functions, Text.folded f.name ≠ Text.folded name := by
  unfold find?
  split
  · rename_i f hf
    exact ⟨Array.mem_of_find?_eq_some hf, by simpa [Text.sameName] using Array.find?_some hf⟩
  · rename_i hnone
    simpa [Text.sameName] using hnone

namespace Script

/-- The host function that an import stands for. -/
def hostFunction? (s : Script) (table : HostTable Body) (index : UInt32) :
    Option (HostFunction Body) :=
  s.imports[index.toNat]?.bind fun imported => table.find? imported.name

/-- A call from a stack of these values calls a host function on arguments, and leaves the values
below: the count on top is the one of the function, and the values under it convert. -/
structure Calls (s : Script) (table : HostTable Body) (values : List Value) (index : UInt32)
    (f : HostFunction Body) (args below : List Value) : Prop where
  found : s.hostFunction? table index = some f
  stacked : ∃ (raw : List Value) (count : Int32), values = below ++ raw ++ [.int count] ∧
    count.toInt = f.args.length ∧ Value.Converted s.strings raw f.args args

variable {s : Script} {table : HostTable Body} {values : List Value} {index : UInt32}

/-- A call takes its function, its arguments and what is below them from the stack in one way only.
-/
theorem Calls.unique {f g : HostFunction Body} {args args' below below' : List Value}
    (h : s.Calls table values index f args below) (h' : s.Calls table values index g args' below') :
    g = f ∧ args' = args ∧ below' = below := by
  obtain ⟨hfound, raw, count, rfl, hcount, hargs⟩ := h
  obtain ⟨hfound', raw', count', hvalues, -, hargs'⟩ := h'
  cases hfound.symm.trans hfound'
  obtain ⟨hvalues, -⟩ := List.append_inj' hvalues rfl
  obtain ⟨rfl, rfl⟩ := List.append_inj' hvalues (hargs.length.trans hargs'.length.symm)
  exact ⟨rfl, hargs'.unique hargs, rfl⟩

/-- A call takes the arguments and their count. -/
theorem Calls.length {f : HostFunction Body} {args below : List Value}
    (h : s.Calls table values index f args below) :
    values.length = below.length + (f.args.length + 1) := by
  obtain ⟨-, raw, count, rfl, -, hargs⟩ := h
  rw [List.length_append, List.length_append, hargs.length, List.length_singleton, Nat.add_assoc]

/-- A call in terms of what is below the top of the stack and of how it converts. -/
theorem calls_append_iff {f g : HostFunction Body} {rest args below : List Value} {v : Value}
    (pc : Nat) (operation : String) (hfound : s.hostFunction? table index = some f) :
    s.Calls table (rest ++ [v]) index g args below ↔ g = f ∧ ∃ count, v = .int count ∧
      (count.toInt = f.args.length ∧ f.args.length ≤ rest.length) ∧
      below = rest.take (rest.length - f.args.length) ∧
      ((rest.drop (rest.length - f.args.length)).zip f.args).mapM
        (fun (v, kind) => v.coerce s.strings pc operation kind) = .ok args := by
  have length : f.args.length ≤ rest.length →
      (rest.drop (rest.length - f.args.length)).length = f.args.length := by
    intro h
    rw [List.length_drop]
    omega
  constructor
  · rintro ⟨hg, raw, count, hstack, hcount, hargs⟩
    cases hfound.symm.trans hg
    obtain ⟨rfl, hv⟩ := List.append_inj' hstack rfl
    have held : f.args.length ≤ (below ++ raw).length := by
      rw [List.length_append, hargs.length]
      exact Nat.le_add_left ..
    have split : (below ++ raw).length - f.args.length = below.length := by
      rw [List.length_append, hargs.length, Nat.add_sub_cancel]
    refine ⟨rfl, count, List.head_eq_of_cons_eq hv, ⟨hcount, held⟩, ?_, ?_⟩
    · rw [split, List.take_left]
    · rw [split, List.drop_left]
      exact (Value.coerceAll_eq_ok_iff hargs.length).2 hargs
  · rintro ⟨rfl, count, rfl, ⟨hcount, held⟩, rfl, hconvert⟩
    refine ⟨hfound, _, count, ?_, hcount, (Value.coerceAll_eq_ok_iff (length held)).1 hconvert⟩
    rw [List.take_append_drop]

end Script

namespace Thread

open Exec

variable {table : HostTable Body}

/-- A count is wrong unless it is the number of declared arguments and there are so many values. -/
theorem wrongCount_iff {count : Int32} {declared held : Nat} :
    (count < 0 ∨ count.toInt.toNat ≠ declared ∨ held < count.toInt.toNat) ↔
      ¬ (count.toInt = declared ∧ declared ≤ held) := by
  rw [Int32.lt_iff_toInt_lt, Int32.toInt_zero]
  omega

variable {t : Thread} {index : UInt32} {pc : Nat}

/-- Where the host has no function for the import, the call fails and the thread is left as it is.
-/
theorem callArguments_of_unfound (h : t.script.hostFunction? table index = none) :
    ∃ e, (callArguments table pc index).run.run t = (.error (.error e), t) := by
  unfold Script.hostFunction? at h
  unfold callArguments
  simp only [run_bind, run_get]
  cases himport : t.script.imports[index.toNat]? with
  | none => exact ⟨_, rfl⟩
  | some imported =>
    rw [himport] at h
    simp only [show table.find? imported.name = none from h]
    exact ⟨_, rfl⟩

/-- Arguments are taken where the function is called, and only on an empty stack does looking for
them end in a fault. -/
theorem callArguments_spec (table : HostTable Body) (pc : Nat) (index : UInt32) (t : Thread) :
    match (callArguments table pc index).run.run t with
    | (.ok (f, args), t') => t'.script = t.script ∧
      t.script.Calls table t.stack.toList index f args t'.stack.toList
    | (.error (.error _), _) =>
      (∀ f args below, ¬ t.script.Calls table t.stack.toList index f args below) ∧
        ((t.script.hostFunction? table index).isSome → 0 < t.stack.size)
    | (.error (.fault f), _) =>
      f = .underflow ∧ (t.script.hostFunction? table index).isSome ∧ t.stack.size = 0 := by
  cases hfound : t.script.hostFunction? table index with
  | none =>
    obtain ⟨e, hrun⟩ := callArguments_of_unfound hfound
    rw [hrun]
    refine ⟨fun f args below calls => ?_, nofun⟩
    cases hfound.symm.trans calls.found
  | some f =>
    obtain ⟨imported, himport, htable⟩ := Option.bind_eq_some_iff.1 hfound
    unfold callArguments
    simp only [run_bind, run_get, himport, htable, run_pop]
    rcases Nat.eq_zero_or_pos t.stack.size with hzero | positive
    · rw [Stack.pop_of_size_eq_zero hzero]
      exact ⟨rfl, rfl, hzero⟩
    have nonempty : t.stack.toList ≠ [] := by
      rw [← List.length_pos_iff, Stack.length_toList]
      exact positive
    obtain ⟨rest, v, hlist⟩ : ∃ rest v, t.stack.toList = rest ++ [v] :=
      ⟨_, _, (List.dropLast_concat_getLast nonempty).symm⟩
    obtain ⟨hpop, hrest⟩ := Stack.pop_of_append hlist
    have calls := fun g args below => @Script.calls_append_iff _ _ table index f g rest args below v
      pc "CallSysFunction" hfound
    rw [hpop, hlist]
    cases v with
    | float | offset | string =>
      refine ⟨fun g args below h => ?_, fun _ => positive⟩
      obtain ⟨-, _, ⟨⟩, -⟩ := (calls g args below).1 h
    | int count =>
      simp only [run_bind, run_get]
      have held : (t.stack.without 1).size = rest.length := by
        rw [← Stack.length_toList, hrest]
      by_cases fits : count.toInt = f.args.length ∧ f.args.length ≤ rest.length
      · rw [if_neg (fun wrong => wrongCount_iff.1 wrong (held ▸ fits)), run_bind, run_modify,
          Stack.topmost_eq, hrest, held]
        dsimp only
        cases hconvert : ((rest.drop (rest.length - f.args.length)).zip f.args).mapM
            fun (v, kind) => v.coerce t.script.strings pc "CallSysFunction" kind with
        | error e =>
          refine ⟨fun g args below h => ?_, fun _ => positive⟩
          obtain ⟨-, _, -, -, -, hok⟩ := (calls g args below).1 h
          cases hconvert.symm.trans hok
        | ok args =>
          refine ⟨rfl, (calls f args _).2 ⟨rfl, count, rfl, fits, ?_, hconvert⟩⟩
          change ((t.stack.without 1).without f.args.length).toList = _
          rw [Stack.toList_without, hrest, held]
      · rw [if_pos (wrongCount_iff.2 (held ▸ fits)), run_bind, run_throw]
        refine ⟨fun g args below h => ?_, fun _ => positive⟩
        obtain ⟨-, _, ⟨⟩, counted, -⟩ := (calls g args below).1 h
        exact fits counted

/-- Where the function is called its arguments are found. -/
theorem callArguments_of_calls (pc : Nat) {f : HostFunction Body} {args below : List Value}
    (calls : t.script.Calls table t.stack.toList index f args below) :
    ∃ t', (callArguments table pc index).run.run t = (.ok (f, args), t') := by
  have spec := callArguments_spec table pc index t
  rcases hrun : (callArguments table pc index).run.run t with ⟨(e | g) | ⟨g, found⟩, t'⟩ <;>
    rw [hrun] at spec
  · exact absurd calls (spec.1 f args below)
  · have length := calls.length
    rw [Stack.length_toList, spec.2.2] at length
    omega
  · obtain ⟨rfl, rfl, -⟩ := calls.unique spec.2
    exact ⟨t', rfl⟩

/-- What a call finds is what it is made on. -/
theorem callee?_eq_some_iff {f : HostFunction Body} {args : List Value} :
    callee? table pc index t = some (f, args) ↔
      ∃ below, t.script.Calls table t.stack.toList index f args below := by
  unfold callee?
  constructor
  · intro h
    have spec := callArguments_spec table pc index t
    split at h
    · rename_i hrun
      cases h
      rw [hrun] at spec
      exact ⟨_, spec.2⟩
    · cases h
  · rintro ⟨below, calls⟩
    obtain ⟨t', hrun⟩ := callArguments_of_calls pc calls
    rw [hrun]

/-! ## Taking the answer -/

/-- What a call of a kind leaves on the stack for an answer. -/
inductive Answers (strings : Array String) : Option Kind → Option Value → Value → Prop where
  | void (answer : Option Value) : Answers strings none answer (.int 0)
  | missing (kind : Kind) : Answers strings (some kind) none (.default kind)
  | converted {kind : Kind} {v v' : Value} (h : Value.Converts strings v kind v') :
    Answers strings (some kind) (some v) v'

/-- What is put on the stack for an answer is of the declared kind, and is no reference to a string.
-/
theorem Answers.kind {strings : Array String} {kind : Kind} {answer : Option Value} {v : Value}
    (h : Answers strings (some kind) answer v) : v.kind = kind ∧ ∀ i, v ≠ .offset i := by
  cases h with
  | missing => cases kind <;> exact ⟨rfl, nofun⟩
  | converted h => exact h.kind

/-- An answer is refused, or there is a value for it. -/
theorem replyValue_cases (kind : Option Kind) (answer : Option Value) (t : Thread) :
    (∃ e, (replyValue pc kind answer).run.run t = (.error (.error e), t)) ∨
      ∃ v, Answers t.script.strings kind answer v ∧
        (replyValue pc kind answer).run.run t = (.ok v, t) := by
  unfold replyValue
  cases kind with
  | none => exact .inr ⟨_, .void answer, rfl⟩
  | some kind =>
    cases answer with
    | none => exact .inr ⟨_, .missing kind, rfl⟩
    | some v =>
      simp only [run_bind, run_get]
      cases hv : v.coerce t.script.strings pc "CallSysFunction" kind with
      | error e => exact .inl ⟨e, rfl⟩
      | ok v' => exact .inr ⟨v', .converted ((Value.coerce_eq_ok_iff ..).1 hv), rfl⟩

/-- Where there is room for an answer it is put on the stack, unless it is of a wrong kind. -/
theorem takeReply_cases (kind : Option Kind) (reply : Reply) (room : t.stack.size < stackCapacity) :
    (∃ e t', (do takeReply pc kind reply; return .proceed : Exec Flow).run.run t
      = (.error (.error e), t')) ∨
    ∃ v t', Answers t.script.strings kind reply.value v ∧
      (do takeReply pc kind reply; return .proceed : Exec Flow).run.run t = (.ok .proceed, t') ∧
      t'.stack.toList = t.stack.toList ++ [v] := by
  -- The handle is collected on the side.
  obtain ⟨u, script, stack, hrun⟩ : ∃ u : Thread, u.script = t.script ∧ u.stack = t.stack ∧
      (takeReply pc kind reply).run.run t
        = (replyValue pc kind reply.value >>= push).run.run u := by
    unfold takeReply
    cases reply.wait with
    | none => exact ⟨t, rfl, rfl, rfl⟩
    | some handle =>
      simp only [run_bind, run_get]
      by_cases hdepth : t.waitDepth = 0
      · rw [if_neg (by simpa using hdepth)]
        exact ⟨t, rfl, rfl, run_bind ..⟩
      · rw [if_pos hdepth]
        exact ⟨{ t with waits := t.waits ++ [handle] }, rfl, rfl,
          (run_bind ..).trans (run_bind ..)⟩
  rw [run_bind, hrun, run_bind]
  rcases replyValue_cases kind reply.value u with ⟨e, hvalue⟩ | ⟨v, hanswer, hvalue⟩
  · rw [hvalue]
    exact .inl ⟨e, u, rfl⟩
  · obtain ⟨s, hpush, hlist⟩ := Stack.push_of_lt v room
    rw [hvalue]
    dsimp only
    rw [run_push, stack, hpush]
    exact .inr ⟨v, _, script ▸ hanswer, rfl, hlist⟩

end Thread

/-! ## Calls in the world -/

/-- The outcome of a run, with a note beside the world. -/
def beside {σ τ α : Type} (note : τ) : EStateM.Result Fault σ α → EStateM.Result Fault (σ × τ) α
  | .ok a w => .ok a (w, note)
  | .error f w => .error f (w, note)

/-- A host that keeps a list of its calls. -/
def Host.recorded (host : Host W Body) : Host (W × List (Body × List Value)) Body where
  call body args := fun (w, calls) => beside (calls ++ [(body, args)]) (host.call body args w)
  isComplete := fun (w, _) => host.isComplete w
  report message := fun (w, calls) => (host.report message w, calls)

namespace Thread

variable {host : Host W Body} {table : HostTable Body} {t : Thread} {pc : Nat}
  {kind : Option Kind} {index : UInt32}

/-- A host call by its outcomes: the operands may be wrong, the function may fail or answer an
error, and otherwise its reply is taken. -/
theorem callHost_eq (w : W) : callHost host table t pc kind index w =
    match (callArguments table pc index).run.run t with
    | (.error (.error e), t') => .ok (t', .error e) w
    | (.error (.fault f), _) => .error f w
    | (.ok (f, args), t') => match host.call f.body args w with
      | .ok (.error e) w' => .ok (t', .error e) w'
      | .ok (.ok reply) w' => runExec t' (do takeReply pc kind reply; return .proceed) w'
      | .error f w' => .error f w' := by
  have found := runExec_eq t (callArguments table pc index) w
  unfold callHost
  rcases hrun : (callArguments table pc index).run.run t with ⟨(e | g) | ⟨f, args⟩, t'⟩ <;>
    rw [hrun] at found
  · exact bind_of_ok found
  · exact bind_of_error found
  · rw [bind_of_ok found]
    dsimp only
    cases hcall : host.call f.body args w with
    | error g w' => exact bind_of_error hcall
    | ok answer w' =>
      rw [bind_of_ok hcall]
      cases answer <;> rfl

/-- A call is kept in the list if there is one. -/
theorem callHost_recorded (w : W) (calls : List (Body × List Value)) :
    callHost host.recorded table t pc kind index (w, calls)
      = beside (calls ++ (callee? table pc index t).toList.map fun (f, args) => (f.body, args))
        (callHost host table t pc kind index w) := by
  unfold callee?
  rw [callHost_eq, callHost_eq]
  rcases (callArguments table pc index).run.run t with ⟨(e | g) | ⟨f, args⟩, t'⟩
  · simp [beside]
  · simp [beside]
  · simp only [Host.recorded, Option.toList_some, List.map_singleton]
    rcases host.call f.body args w with ⟨e | reply, w'⟩ | ⟨g, w'⟩
    · rfl
    · simp only [beside, runExec_eq]
      rcases (do takeReply pc kind reply; return .proceed : Exec Flow).run.run t'
        with ⟨(e | g) | flow, u⟩ <;> rfl
    · rfl

/-- A call goes on with an answer in place of the arguments. It ends in a fault on an empty stack,
and where the host function does so. -/
theorem callHost_spec (host : Host W Body) (table : HostTable Body) (t : Thread) (pc : Nat)
    (kind : Option Kind) (index : UInt32) (w : W) :
    match callHost host table t pc kind index w with
    | .ok (t', .ok flow) w' => flow = .proceed ∧ ∃ f args below reply v,
      t.script.Calls table t.stack.toList index f args below ∧
      host.call f.body args w = .ok (.ok reply) w' ∧
      Answers t.script.strings kind reply.value v ∧ t'.stack.toList = below ++ [v]
    | .ok (_, .error _) _ => (t.script.hostFunction? table index).isSome → 0 < t.stack.size
    | .error g w' =>
      (g = .underflow ∧ w' = w ∧ (t.script.hostFunction? table index).isSome ∧ t.stack.size = 0) ∨
      ∃ f args below, t.script.Calls table t.stack.toList index f args below ∧
        host.call f.body args w = .error g w' := by
  have spec := callArguments_spec table pc index t
  rw [callHost_eq]
  rcases hrun : (callArguments table pc index).run.run t with ⟨(e | g) | ⟨f, args⟩, t'⟩ <;>
    rw [hrun] at spec <;> dsimp only at spec ⊢
  · exact spec.2
  · exact .inl ⟨spec.1, rfl, spec.2⟩
  obtain ⟨script, calls⟩ := spec
  have length := calls.length
  rw [Stack.length_toList] at length
  rcases hcall : host.call f.body args w with ⟨e | reply, w'⟩ | ⟨g, w'⟩ <;> dsimp only
  · exact fun _ => by omega
  · have room : t'.stack.size < stackCapacity := by
      have bound : t.stack.size ≤ stackCapacity := t.stack.size_le
      rw [← Stack.length_toList]
      omega
    rw [runExec_eq]
    rcases takeReply_cases kind reply room with ⟨e, u, htake⟩ | ⟨v, u, answers, htake, hlist⟩ <;>
      rw [htake] <;> dsimp only
    · exact fun _ => by omega
    · exact ⟨rfl, f, args, _, reply, v, calls, hcall, script ▸ answers, hlist⟩
  · exact .inr ⟨f, args, _, calls, hcall⟩

end Thread

/-- A host call with at least one value on the stack calls a host function once or not at all. It
does so exactly if the import and its function exist, the count on top is an integer and the number
of declared arguments, and that many values are left, each of which converts to its declared kind;
the function gets them converted, in the order in which they were pushed. If the thread goes on,
one value stands for the arguments and the count, and everything below is as it was: zero for a call
without an answer, and a value of the kind of the call otherwise, with its text if it is a string.
Neither does the stack overflow nor does it run short; a fault can only be one of the function
itself. -/
theorem host_calls_follow_convention (host : Host W Body) (table : HostTable Body) {t : Thread}
    {kind : Option Kind} {index : UInt32} {next : Nat}
    (hdec : Instruction.decode t.script.bytecode t.pc = .ok (.callSysFunction kind index, next))
    (hstack : 0 < t.stack.size) (w : W) (log : List (Body × List Value)) :
    (∃ calls, t.step host.recorded table (w, log) = beside (log ++ calls) (t.step host table w) ∧
      calls.length ≤ 1 ∧ ∀ body args, (body, args) ∈ calls ↔
        ∃ f below, t.script.Calls table t.stack.toList index f args below ∧ f.body = body) ∧
    (match t.script.hostFunction? table index with
      | some f => ∃ imported, t.script.imports[index.toNat]? = some imported ∧
        f ∈ table.functions ∧ Text.folded f.name = Text.folded imported.name
      | none => ∀ imported, t.script.imports[index.toNat]? = some imported →
        ∀ f ∈ table.functions, Text.folded f.name ≠ Text.folded imported.name) ∧
    (∀ f args below, t.script.Calls table t.stack.toList index f args below →
      args.map Value.kind = f.args ∧ ∀ i, .offset i ∉ args) ∧
    (∀ t' flow w', t.step host table w = .ok (t', .ok flow) w' → flow = .proceed ∧
      ∃ f args below reply v, t.script.Calls table t.stack.toList index f args below ∧
        host.call f.body args w = .ok (.ok reply) w' ∧
        Thread.Answers t.script.strings kind reply.value v ∧ t'.stack.toList = below ++ [v] ∧
        (kind = none → v = .int 0) ∧ ∀ k, kind = some k → v.kind = k ∧ ∀ i, v ≠ .offset i) ∧
    ∀ g w', t.step host table w = .error g w' → ∃ f args below,
      t.script.Calls table t.stack.toList index f args below ∧
        host.call f.body args w = .error g w' := by
  have step : t.step host table w
      = Thread.callHost host table { t with pc := next } t.pc kind index w :=
    Thread.step_of_call host table hdec w
  have spec := Thread.callHost_spec host table { t with pc := next } t.pc kind index w
  rw [← step] at spec
  refine ⟨?_, ?_, fun f args below calls => ?_, fun t' flow w' h => ?_, fun g w' h => ?_⟩
  · refine ⟨(Thread.callee? table t.pc index { t with pc := next }).toList.map
      fun (f, args) => (f.body, args), ?_, ?_, fun body args => ?_⟩
    · rw [step, ← Thread.callHost_recorded]
      exact Thread.step_of_call host.recorded table hdec (w, log)
    · rw [List.length_map]
      cases Thread.callee? table t.pc index { t with pc := next } <;> simp
    · rw [List.mem_map]
      constructor
      · rintro ⟨⟨f, args⟩, hfound, ⟨⟩⟩
        obtain ⟨below, calls⟩ := Thread.callee?_eq_some_iff.1 (Option.mem_toList.1 hfound)
        exact ⟨f, below, calls, rfl⟩
      · rintro ⟨f, below, calls, rfl⟩
        exact ⟨(f, args), Option.mem_toList.2 (Thread.callee?_eq_some_iff.2 ⟨below, calls⟩), rfl⟩
  · unfold Script.hostFunction?
    cases t.script.imports[index.toNat]? with
    | none => exact nofun
    | some imported =>
      have named := table.find?_spec imported.name
      rw [Option.bind_some]
      split at named
      · exact ⟨imported, rfl, named⟩
      · rintro _ ⟨⟩
        exact named
  · obtain ⟨-, raw, count, -, -, converted⟩ := calls
    exact converted.kinds
  · rw [h] at spec
    obtain ⟨rfl, f, args, below, reply, v, calls, hcall, answers, hlist⟩ := spec
    refine ⟨rfl, f, args, below, reply, v, calls, hcall, answers, hlist, ?_, ?_⟩
    · rintro rfl
      cases answers
      rfl
    · rintro k rfl
      exact answers.kind
  · rw [h] at spec
    rcases spec with ⟨-, -, -, empty⟩ | called
    · exact absurd empty (Nat.ne_of_gt hstack)
    · exact called

/-- A host whose functions count their calls and answer with a word. -/
def saluteHost : Host Nat Unit where
  call _ _ := do
    modify (· + 1)
    return .ok (.ofValue (.string "hello"))
  isComplete _ _ := false
  report _ count := count

/-- One function, of a text and a float. -/
def saluteTable : HostTable Unit :=
  ⟨#[⟨"Salute", [.string, .float], some .string, ()⟩]⟩

/-- A thread in front of `CallSysFunctionS 0`, with an offset and an integer for arguments. -/
def saluting : Thread where
  id := 1
  script := { Script.blank "salute" with
    strings := #["you"]
    imports := #[⟨"SALUTE", 2⟩]
    bytecode := #[0x05, 0, 0, 0, 0] }
  function := "Main"
  pc := 0
  stack := ⟨#[.int 7, .offset 0, .int 2, .int 2], by decide⟩
  vars := #[]
  status := .ready
  waitDepth := 0
  waits := []

/-- The function gets the text and a float, and its answer stands on what was below. -/
theorem host_calls_follow_convention_salute :
    (∃ calls, saluting.step saluteHost.recorded saluteTable (0, [])
        = beside calls (saluting.step saluteHost saluteTable 0) ∧
      calls.length ≤ 1 ∧ ((), [.string "you", .float (Binary32.ofInt32 2)]) ∈ calls) ∧
    ∃ t', saluting.step saluteHost saluteTable 0 = .ok (t', .ok .proceed) 1 ∧
      ∃ v, t'.stack.toList = [.int 7] ++ [v] ∧ v.kind = .string := by
  have calls : saluting.script.Calls saluteTable saluting.stack.toList 0
      ⟨"Salute", [.string, .float], some .string, ()⟩
      [.string "you", .float (Binary32.ofInt32 2)] [.int 7] :=
    ⟨rfl, [.offset 0, .int 2], 2, rfl, by decide,
      .cons (.resolved rfl) (.cons (.widened 2) .nil)⟩
  have read : Instruction.decode saluting.script.bytecode saluting.pc
      = .ok (.callSysFunction (some .string) 0, 5) := rfl
  obtain ⟨⟨l, hrun, length, hcalls⟩, -, -, goes, -⟩ :=
    host_calls_follow_convention saluteHost saluteTable read (by decide) 0 []
  refine ⟨⟨l, hrun, length, (hcalls _ _).2 ⟨_, _, calls, rfl⟩⟩, ?_⟩
  have run : ∃ t', saluting.step saluteHost saluteTable 0 = .ok (t', .ok .proceed) 1 :=
    ⟨_, rfl⟩
  obtain ⟨t', hstep⟩ := run
  obtain ⟨-, f, args, below, reply, v, calls', -, -, hlist, -, kind⟩ := goes _ _ _ hstep
  obtain ⟨-, -, rfl⟩ := calls.unique calls'
  exact ⟨t', hstep, v, hlist, (kind .string rfl).1⟩

end SheepScene
