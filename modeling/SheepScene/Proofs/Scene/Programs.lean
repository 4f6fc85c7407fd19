import SheepScene.Scene.HostFunctions

/-!
# What programs come to request

A program requests one thing after another, depending on the answers. `Program.Only` says that all
requests it may ever come to are of some kind. Movers, listeners and the functions that every scene
offers are plain: they drop no entity, add no component, issue no handle and ask for no update, with
the exception of the one function that moves actors (`HostFunctions.plain_or_moves`).
-/

set_option autoImplicit false

namespace SheepScene

variable {K B : Type}

/-! ## Programs of allowed requests -/

namespace Program

variable {R S : Type}

/-- All requests that a program may come to perform are allowed. -/
def Only (allowed : Request K B → Prop) : Program K B R → Prop
  | .done _ => True
  | .perform request next | .echo _ request next =>
    allowed request ∧ ∀ answer, (next answer).Only allowed

variable {allowed : Request K B → Prop}

/-- Returning makes no request at all. -/
theorem only_pure (r : R) : (pure r : Program K B R).Only allowed :=
  trivial

/-- Two programs in sequence make only allowed requests if both do. -/
theorem only_bind {p : Program K B R} {f : R → Program K B S} (hp : p.Only allowed)
    (hf : ∀ r, (f r).Only allowed) : (p >>= f).Only allowed := by
  change (p.bind f).Only allowed
  induction p with
  | done r => exact hf r
  | perform request next ih => exact ⟨hp.1, fun answer => ih answer (hp.2 answer)⟩
  | echo tag request next ih => exact ⟨hp.1, fun answer => ih answer (hp.2 answer)⟩

/-- What is allowed may be more than what is asked for. -/
theorem Only.mono {allowed' : Request K B → Prop} {p : Program K B R} (h : p.Only allowed)
    (more : ∀ request, allowed request → allowed' request) : p.Only allowed' := by
  induction p with
  | done r => trivial
  | perform request next ih => exact ⟨more _ h.1, fun answer => ih answer (h.2 answer)⟩
  | echo tag request next ih => exact ⟨more _ h.1, fun answer => ih answer (h.2 answer)⟩

/-- A single request that is allowed is a program of allowed requests. -/
theorem only_request {r : Request K B} (h : allowed r) : (Program.request r).Only allowed :=
  ⟨h, fun _ => trivial⟩

/-- A query that is allowed is a program of allowed requests. -/
theorem only_ask {q : Query K} (h : allowed (.ask q)) :
    (Program.ask q : Program K B _).Only allowed :=
  ⟨h, fun _ => trivial⟩

/-- An edit that is allowed is a program of allowed requests. -/
theorem only_edit {x : Edit K B} (h : allowed (.edit x)) : (Program.edit x).Only allowed :=
  ⟨h, fun _ => trivial⟩

/-- Whatever the answers are, a program ends in a result of a kind. -/
def Yields (P : R → Prop) : Program K B R → Prop
  | .done r => P r
  | .perform _ next => ∀ answer, (next answer).Yields P
  | .echo _ _ next => ∀ answer, (next answer).Yields P

/-- If all results are of a kind, every program yields it. -/
theorem yields_of_forall {P : R → Prop} (h : ∀ r, P r) (p : Program K B R) : p.Yields P := by
  induction p with
  | done r => exact h r
  | perform _ _ ih | echo _ _ _ ih => exact ih

/-- A program yields what the program after it does. -/
theorem yields_bind {P : S → Prop} (p : Program K B R) {f : R → Program K B S}
    (h : ∀ r, (f r).Yields P) : (p >>= f).Yields P := by
  change (p.bind f).Yields P
  induction p with
  | done r => exact h r
  | perform _ _ ih | echo _ _ _ ih => exact ih

end Program

/-- Edits that drop no entity, touch no component and issue no handle. -/
def Edit.Plain : Edit K B → Prop
  | .despawn _ | .add .. | .retarget .. | .issueWait => False
  | _ => True

/-- Requests other than such edits that do not ask for updates. -/
def Request.Plain : Request K B → Prop
  | .edit x => x.Plain
  | .updateActor .. | .lateUpdateActor .. | .updateActors | .lateUpdateActors => False
  | _ => True

/-- The class of plain programs. -/
def plain (K B : Type) (R : Type) (p : Program K B R) : Prop :=
  p.Only Request.Plain

/-- Plain edits that leave who is heard from alone. -/
def Edit.Quiet : Edit K B → Prop
  | .publishListener _ => False
  | x => x.Plain

/-- Plain requests other than edits of who is heard from. -/
def Request.Quiet : Request K B → Prop
  | .edit x => x.Quiet
  | request => request.Plain

/-- The class of quiet programs. -/
def quiet (K B : Type) (R : Type) (p : Program K B R) : Prop :=
  p.Only Request.Quiet

/-- Requests that the functions of every scene make: quiet ones, and those that set an actor
moving. -/
def Request.Hosted : Request K B → Prop
  | .edit .issueWait | .edit (.retarget ..) | .edit (.add ..) => True
  | request => request.Quiet

/-- Quiet programs are plain. -/
theorem plain_of_quiet {R : Type} {p : Program K B R} (h : quiet K B R p) : plain K B R p := by
  refine h.mono fun request allowed => ?_
  cases request with
  | edit x => cases x <;> first | exact trivial | exact allowed
  | _ => exact allowed

/-! ## Movers, listeners and host functions -/

section Components

variable [Scalar K]

open Program

omit [Scalar K] in
/-- A mover is quiet when it releases its handle. -/
theorem Mover.quiet_release (m : Mover K) : quiet K B Unit m.release := by
  unfold Mover.release
  split
  · exact only_edit trivial
  · exact only_pure ()

omit [Scalar K] in
/-- A mover is quiet when it finishes. -/
theorem Mover.quiet_finish (m : Mover K) : quiet K B (Mover K) m.finish :=
  only_bind m.quiet_release fun _ => only_pure _

/-- A mover is quiet in all its hooks. -/
theorem Mover.quiet_react (m : Mover K) (e : EntityId) (hook : Hook K) :
    quiet K B (Mover K) (m.react e hook) := by
  cases hook with
  | enable =>
    change quiet K B _ m.onEnable
    unfold Mover.onEnable
    split
    · exact only_bind m.quiet_release fun _ => only_pure _
    · exact only_pure _
  | disable =>
    change quiet K B _ (m.onDisable e)
    unfold Mover.onDisable
    split
    · exact only_pure _
    · exact only_bind (only_edit trivial) fun _ => m.quiet_finish
  | update dt =>
    change quiet K B _ (m.onUpdate e dt)
    unfold Mover.onUpdate
    split
    · exact only_pure _
    · refine only_bind (only_edit trivial) fun start => ?_
      cases start with
      | none => exact only_pure _
      | some start =>
        refine only_bind (only_edit trivial) fun _ => ?_
        split
        · refine only_bind (Mover.quiet_finish _) fun m => ?_
          exact only_bind (only_request trivial) fun _ => only_pure _
        · exact only_pure _
  | lateUpdate dt => exact only_pure _

/-- A mover is plain in all its hooks. -/
theorem Mover.plain_react (m : Mover K) (e : EntityId) (hook : Hook K) :
    plain K B (Mover K) (m.react e hook) :=
  plain_of_quiet (m.quiet_react e hook)

/-- A listener is plain in all its hooks, though it publishes where it is. -/
theorem plain_listenerReact (e : EntityId) (hook : Hook K) :
    plain K B Unit (listenerReact e hook) := by
  cases hook with
  | lateUpdate dt =>
    refine only_bind (only_edit trivial) fun position => ?_
    cases position with
    | none => exact only_pure _
    | some position =>
      refine only_bind (only_ask trivial) fun rotation => ?_
      cases rotation with
      | none => exact only_pure _
      | some rotation => exact only_edit trivial
  | disable =>
    refine only_bind (only_ask trivial) fun pose => ?_
    cases pose with
    | none => exact only_pure _
    | some pose =>
      dsimp only
      split
      · exact only_edit trivial
      · exact only_pure _
  | enable | update => exact only_pure _

end Components

/-- The functions of a table are those that have been registered. -/
theorem HostTable.mem_ofList {Body : Type} {l : List (HostFunction Body)} {f : HostFunction Body}
    (h : f ∈ (HostTable.ofList l).functions) : f ∈ l := by
  have registered : ∀ (l : List (HostFunction Body)) (t : HostTable Body),
      f ∈ (l.foldl register t).functions → f ∈ t.functions ∨ f ∈ l := by
    intro l
    induction l with
    | nil => exact fun t ht => .inl ht
    | cons g l ih =>
      intro t ht
      rcases ih _ ht with hf | hf
      · unfold register at hf
        split at hf
        · rcases Array.mem_or_eq_of_mem_setIfInBounds hf with hf | rfl
          · exact .inl hf
          · exact .inr (List.mem_cons_self ..)
        · rcases Array.mem_push.1 hf with hf | rfl
          · exact .inl hf
          · exact .inr (List.mem_cons_self ..)
      · exact .inr (List.mem_cons_of_mem _ hf)
  rcases registered l .empty h with hf | hf
  · cases hf
    contradiction
  · exact hf

namespace HostFunctions

open Program

/-- Looking up an actor by its name is quiet. -/
theorem quiet_namedActor (function name : String) :
    quiet Float32 B _ (namedActor (B := B) function name) := by
  refine only_bind (only_ask trivial) fun found => ?_
  cases found with
  | some e => exact only_pure _
  | none => exact only_bind (only_edit trivial) fun _ => only_pure _

/-- Looking up an actor by its name is plain. -/
theorem plain_namedActor (function name : String) :
    plain Float32 B _ (namedActor (B := B) function name) :=
  plain_of_quiet (quiet_namedActor function name)

/-- A function that does something quiet to an actor it is given by name is quiet. -/
theorem quiet_withActor (function : String) (args : List Value) {act : EntityId → Steps B Unit}
    (hact : ∀ e, quiet Float32 B Unit (act e)) :
    quiet Float32 B _ (withActor function args act) := by
  refine only_bind (quiet_namedActor _ _) fun found => ?_
  cases found with
  | some e => exact only_bind (hact e) fun _ => only_pure _
  | none => exact only_pure _

/-- Counting the live actors is quiet. -/
theorem quiet_countLive (actors : List EntityId) :
    quiet Float32 B _ (countLive (B := B) actors) := by
  induction actors with
  | nil => exact only_pure _
  | cons e rest ih =>
    exact only_bind (only_ask trivial) fun _ => only_bind ih fun _ => only_pure _

/-- Giving a coordinate of an actor is quiet. -/
theorem quiet_coordinate (function : String) (axis : Vec3 Float32 → Float32) (args : List Value) :
    quiet Float32 B _ (coordinate (B := B) function axis args) := by
  refine only_bind (quiet_namedActor _ _) fun found => ?_
  cases found with
  | none => exact only_pure _
  | some e => exact only_bind (only_edit trivial) fun _ => only_pure _

/-- Printing a line is quiet. -/
theorem quiet_printLine (line : String) : quiet Float32 B _ (printLine (B := B) line) :=
  only_bind (only_edit trivial) fun _ => only_pure _

/-- Drawing a random number is quiet. -/
theorem quiet_random (args : List Value) : quiet Float32 B _ (random (B := B) args) :=
  only_bind (only_edit trivial) fun _ => only_pure _

/-- Giving the number of actors is quiet. -/
theorem quiet_actorCount : quiet Float32 B _ (actorCount (B := B)) :=
  only_bind (only_ask trivial) fun _ => only_bind (quiet_countLive _) fun _ => only_pure _

/-- Telling whether an actor is active is quiet. -/
theorem quiet_isActorActive (args : List Value) :
    quiet Float32 B _ (isActorActive (B := B) args) := by
  refine only_bind (quiet_namedActor _ _) fun found => ?_
  cases found with
  | some e => exact only_bind (only_ask trivial) fun _ => only_pure _
  | none => exact only_pure _

/-- The functions that every scene offers are quiet, except for the one that moves actors. -/
theorem quiet_or_moves {f : HostFunction (HostBody Float32 B)} (hf : f ∈ table.functions)
    (args : List Value) : quiet Float32 B _ (f.body args) ∨
      f.body args = (moveActorTo args).bind fun reply => .done (.ok reply) := by
  have offered : ∀ {name kinds result} {body : List Value → Steps B Reply},
      (∀ args, quiet Float32 B _ (body args)) →
      quiet Float32 B _ ((function name kinds result body).body args) :=
    fun hbody => only_bind (hbody args) fun _ => only_pure _
  have hf := HostTable.mem_ofList hf
  simp only [all, List.mem_cons, List.not_mem_nil, or_false] at hf
  rcases hf with rfl | rfl | rfl | rfl | rfl | rfl | rfl | rfl | rfl | rfl | rfl | rfl | rfl
  · exact .inl (offered fun args => quiet_printLine _)
  · exact .inl (offered fun args => quiet_printLine _)
  · exact .inl (offered fun args => quiet_printLine _)
  · exact .inl (offered quiet_random)
  · exact .inl (offered fun _ => quiet_actorCount)
  · exact .inl (offered quiet_isActorActive)
  · exact .inl (offered fun args => quiet_withActor _ _ fun e => only_request trivial)
  · exact .inl (offered fun args => quiet_withActor _ _ fun e => only_edit trivial)
  · exact .inl (offered fun args => quiet_withActor _ _ fun e => only_edit trivial)
  · exact .inl (offered (quiet_coordinate _ _))
  · exact .inl (offered (quiet_coordinate _ _))
  · exact .inl (offered (quiet_coordinate _ _))
  · exact .inr rfl

/-- Every function of the table is plain, unless it is the one that sets an actor moving. -/
theorem plain_or_moves {f : HostFunction (HostBody Float32 B)} (hf : f ∈ table.functions)
    (args : List Value) : plain Float32 B _ (f.body args) ∨
      f.body args = (moveActorTo args).bind fun reply => .done (.ok reply) :=
  (quiet_or_moves hf args).imp_left plain_of_quiet

/-- Quiet programs make requests that the functions of every scene make. -/
theorem hosted_of_quiet {R : Type} {p : Program Float32 B R} (h : quiet Float32 B R p) :
    p.Only Request.Hosted := by
  refine h.mono fun request allowed => ?_
  cases request with
  | edit x => cases x <;> first | exact trivial | exact allowed
  | _ => exact allowed

/-- Setting an actor moving makes requests that the functions of every scene make. -/
theorem hosted_moveActorTo (args : List Value) :
    (moveActorTo (B := B) args).Only Request.Hosted := by
  refine only_bind (hosted_of_quiet (quiet_namedActor _ _)) fun found => ?_
  cases found with
  | none => exact only_pure _
  | some e =>
    refine only_bind (only_ask trivial) fun active => ?_
    split
    · exact only_bind (only_edit trivial) fun _ => only_pure _
    · refine only_bind (only_edit trivial) fun handle => ?_
      refine only_bind (only_edit trivial) fun moved => ?_
      split
      · exact only_bind (only_request trivial) fun _ => only_pure _
      · exact only_bind (only_edit trivial) fun _ => only_pure _

/-- All functions of the table make requests that the functions of every scene make. -/
theorem hosted {f : HostFunction (HostBody Float32 B)} (hf : f ∈ table.functions)
    (args : List Value) : (f.body args).Only Request.Hosted := by
  rcases quiet_or_moves hf args with quiet | moves
  · exact hosted_of_quiet quiet
  · rw [moves]
    exact only_bind (hosted_moveActorTo args) fun _ => only_pure _

end HostFunctions

end SheepScene
