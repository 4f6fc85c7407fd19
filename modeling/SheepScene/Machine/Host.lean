import SheepScene.Sheep.Error
import SheepScene.Text.Case

/-!
# The world outside a script

Scripts act on a world of which the machine knows only what a `Host` offers: calling a host
function, asking whether a wait handle is complete, and reporting that a thread has failed. The
machine is the same for every type of world and every way to write host functions.
-/

set_option autoImplicit false

namespace SheepScene

/-- Something a script may wait for. -/
inductive WaitHandle where
  /-- Made by the world for one of its own activities. -/
  | issued (serial : Nat)
  /-- Named by number from outside. -/
  | named (number : Int)
  deriving DecidableEq, Repr

/-- Which handles there are, and which of them are complete. A complete handle stays complete. -/
structure Waits where
  issued : Array Bool
  named : List (Int × Bool)

namespace Waits

/-- No handle at all. -/
def none : Waits :=
  { issued := #[], named := [] }

/-- Whether what a handle stands for is over. -/
def isComplete (w : Waits) : WaitHandle → Bool
  | .issued serial => (w.issued[serial]?).getD false
  | .named number => (w.named.lookup number).getD false

/-- A new handle, incomplete. -/
def issue (w : Waits) : WaitHandle × Waits :=
  (.issued w.issued.size, { w with issued := w.issued.push false })

/-- The handle of a number, made when the number is used for the first time. -/
def name (w : Waits) (number : Int) : WaitHandle × Waits :=
  (.named number,
    if (w.named.lookup number).isSome then w else { w with named := (number, false) :: w.named })

/-- Whether the handle of a number is complete, if it has been made. -/
def status? (w : Waits) (number : Int) : Option Bool :=
  w.named.lookup number

/-- Marks a handle as complete. -/
def complete (w : Waits) : WaitHandle → Waits
  | .issued serial => { w with issued := w.issued.setIfInBounds serial true }
  | .named number =>
    { w with named := w.named.map fun entry => (entry.1, entry.2 || entry.1 == number) }

/-- Completing a handle completes the entries of its number and leaves the others as they are. -/
theorem lookup_complete (named : List (Int × Bool)) (number n : Int) :
    (named.map fun entry => (entry.1, entry.2 || entry.1 == number)).lookup n
      = (named.lookup n).map (· || n == number) := by
  induction named with
  | nil => rfl
  | cons entry rest ih =>
    obtain ⟨m, done⟩ := entry
    by_cases h : n = m
    · subst h
      simp
    · have : (n == m) = false := by simpa using h
      simp only [List.map_cons, List.lookup_cons, this, ih]

/-- A complete handle stays complete. -/
theorem isComplete_complete {w : Waits} {h : WaitHandle} (done : w.isComplete h = true)
    (other : WaitHandle) : (w.complete other).isComplete h = true := by
  cases other with
  | issued serial => cases h with
    | issued s =>
      simp only [isComplete, complete, Array.getElem?_setIfInBounds] at done ⊢
      split
      · subst_vars
        split <;> simp_all
      · exact done
    | named n => exact done
  | named number => cases h with
    | issued s => exact done
    | named n =>
      simp only [isComplete, complete, lookup_complete] at done ⊢
      cases h : w.named.lookup n with
      | none => simp [h] at done
      | some b => simp_all

end Waits

/-- What a host function answers. -/
structure Reply where
  value : Option Value
  wait : Option WaitHandle

namespace Reply

/-- No answer. -/
def void : Reply :=
  { value := none, wait := none }

/-- A value. -/
def ofValue (v : Value) : Reply :=
  { value := some v, wait := none }

/-- No value, but something to wait for. -/
def waiting (handle : WaitHandle) : Reply :=
  { value := none, wait := some handle }

end Reply

/-- A function that the host offers to scripts: the kinds of its arguments and of its answer, and
what it does, in whatever form the host understands. -/
structure HostFunction (Body : Type) where
  name : String
  args : List Kind
  result : Option Kind
  body : Body

/-- The host functions that scripts can import, one for each name in any case. -/
structure HostTable (Body : Type) where
  functions : Array (HostFunction Body)

namespace HostTable

variable {Body : Type}

/-- No function. -/
def empty : HostTable Body :=
  ⟨#[]⟩

/-- How many functions there are. -/
def size (t : HostTable Body) : Nat :=
  t.functions.size

/-- The function of a name, in any case. -/
def find? (t : HostTable Body) (name : String) : Option (HostFunction Body) :=
  t.functions.find? fun f => Text.sameName f.name name

/-- Whether there is a function of a name. -/
def contains (t : HostTable Body) (name : String) : Bool :=
  (t.find? name).isSome

/-- Adds a function; one of the same name is replaced. -/
def register (t : HostTable Body) (f : HostFunction Body) : HostTable Body :=
  match t.functions.findIdx? fun g => Text.sameName g.name f.name with
  | some i => ⟨t.functions.setIfInBounds i f⟩
  | none => ⟨t.functions.push f⟩

/-- The table of some functions, later ones replacing earlier ones of their name. -/
def ofList (functions : List (HostFunction Body)) : HostTable Body :=
  functions.foldl register empty

end HostTable

/-- What a world of type `W` does for the machine, when host functions are given as `Body`. -/
structure Host (W Body : Type) where
  /-- Runs a host function on arguments of the declared kinds. -/
  call : Body → List Value → EStateM Fault W (Except ScriptError Reply)
  /-- Whether a wait handle is complete. -/
  isComplete : W → WaitHandle → Bool
  /-- Takes note of an error message. -/
  report : String → W → W

end SheepScene
