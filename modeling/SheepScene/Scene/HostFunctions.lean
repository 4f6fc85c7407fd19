import SheepScene.Scene.Mover

/-!
# Host functions of a scene

What scripts can do in a scene. Actors are named, in any case. A name that no actor has is warned
of; nothing is done then, and getters give zero. Arguments that are missing count as nothing: the
empty text, zero.
-/

set_option autoImplicit false

namespace SheepScene.HostFunctions

/-! ## Arguments -/

/-- An argument as text. -/
def text (args : List Value) (index : Nat) : String :=
  ((args[index]?).bind Value.asString?).getD ""

/-- An argument as an integer. -/
def int (args : List Value) (index : Nat) : Int32 :=
  ((args[index]?).bind Value.toInt?).getD 0

/-- An argument as a float. -/
def float (args : List Value) (index : Nat) : Float32 :=
  ((args[index]?).bind Value.toFloat?).getD 0

/-- Three arguments as a point. -/
def point (args : List Value) (first : Nat) : Vec3 Float32 :=
  ⟨float args first, float args (first + 1), float args (first + 2)⟩

/-! ## Programs -/

variable {B : Type}

/-- The programs of host functions. -/
abbrev Steps (B R : Type) : Type :=
  Program Float32 B R

/-- The actor of a name. One that is not there is warned of under the name of the function. -/
def namedActor (function name : String) : Steps B (Option EntityId) := do
  match ← Program.ask (.find name) with
  | some e => return some e
  | none =>
    let () ← Program.edit (.log .warn s!"{function}: no actor named '{name}'")
    return none

/-- Prints a line for the author of a script. -/
def printLine (line : String) : Steps B Reply := do
  let () ← Program.edit (.log .info s!"[sheep] {line}")
  return .void

/-- Does something with the actor that the first argument names, if there is one. -/
def withActor (function : String) (args : List Value) (act : EntityId → Steps B Unit) :
    Steps B Reply := do
  match ← namedActor function (text args 0) with
  | some e => act e; return .void
  | none => return .void

/-- How many of some actors are not destroyed. -/
def countLive : List EntityId → Steps B Nat
  | [] => pure 0
  | e :: rest => do
    let found ← Program.ask (.actor e)
    let others ← countLive rest
    return match found with
      | some a => if a.state = .destroyed then others else others + 1
      | none => others

/-- Some number from zero up to, but not including, the argument. -/
def random (args : List Value) : Steps B Reply := do
  let bound := int args 0
  let n ← Program.edit (.draw bound.toInt.toNat)
  return .ofValue (.int (Int32.ofNat n))

/-- The number of actors that are not destroyed. -/
def actorCount : Steps B Reply := do
  let n ← countLive (← Program.ask .actors)
  return .ofValue (.int (Int32.ofNat n))

/-- Whether the named actor is active. -/
def isActorActive (args : List Value) : Steps B Reply := do
  match ← namedActor "IsActorActive" (text args 0) with
  | some e => return .ofValue (.ofBool (← Program.ask (.isActive e)))
  | none => return .ofValue (.ofBool false)

/-- A coordinate of the named actor in the world. -/
def coordinate (function : String) (axis : Vec3 Float32 → Float32) (args : List Value) :
    Steps B Reply := do
  match ← namedActor function (text args 0) with
  | none => return .ofValue (.float 0)
  | some e =>
    let position ← Program.edit (.worldPosition e)
    return .ofValue (.float ((position.map axis).getD 0))

/-- Moves the named actor to a point of the world in the given time, with its first mover that is
not executing or else with a new one, and answers what to wait for. An actor that is not active is
put there at once. -/
def moveActorTo (args : List Value) : Steps B Reply := do
  match ← namedActor "MoveActorTo" (text args 0) with
  | none => return .void
  | some e =>
    let target := point args 1
    let duration := float args 4
    if !(← Program.ask (.isActive e)) then
      let () ← Program.edit (.placeInWorld e (.position target))
      return .void
    let handle ← Program.edit .issueWait
    if ← Program.edit (.retarget e target duration (some handle)) then
      let () ← Program.request (.setEnabled e .mover true)
      return .waiting handle
    else
      let _ ← Program.edit (.add e (.mover (.start target duration .linear (some handle))))
      return .waiting handle

/-! ## The table -/

/-- A host function that cannot fail. -/
def function (name : String) (args : List Kind) (result : Option Kind)
    (body : List Value → Steps B Reply) : HostFunction (HostBody Float32 B) :=
  { name, args, result, body := fun args => do return .ok (← body args) }

/-- The functions that every scene offers. -/
def all : List (HostFunction (HostBody Float32 B)) :=
  [function "PrintString" [.string] none fun args => printLine (text args 0),
    function "PrintInt" [.int] none fun args => printLine (Value.int (int args 0)).text,
    function "PrintFloat" [.float] none fun args =>
      printLine (FloatLayout.plain.write (float args 0)),
    function "Random" [.int] (some .int) random,
    function "GetActorCount" [] (some .int) fun _ => actorCount,
    function "IsActorActive" [.string] (some .int) isActorActive,
    function "SetActorActive" [.string, .int] none fun args =>
      withActor "SetActorActive" args fun e =>
        Program.request (.setActive e (int args 1 != 0)),
    function "DestroyActor" [.string] none fun args =>
      withActor "DestroyActor" args fun e => Program.edit (.destroy e),
    function "SetActorPosition" [.string, .float, .float, .float] none fun args =>
      withActor "SetActorPosition" args fun e =>
        Program.edit (.placeInWorld e (.position (point args 1))),
    function "GetActorPositionX" [.string] (some .float)
      (coordinate "GetActorPositionX" (·.x)),
    function "GetActorPositionY" [.string] (some .float)
      (coordinate "GetActorPositionY" (·.y)),
    function "GetActorPositionZ" [.string] (some .float)
      (coordinate "GetActorPositionZ" (·.z)),
    function "MoveActorTo" [.string, .float, .float, .float, .float] none moveActorTo]

/-- The table of the functions that every scene offers. -/
def table : HostTable (HostBody Float32 B) :=
  .ofList all

end SheepScene.HostFunctions
