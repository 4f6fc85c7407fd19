import SheepScene.Sheep.Error

/-!
# The operand stack

A stack never holds more values than its capacity. Pushing on a full stack and popping more than
there is are faults of the code that runs, and they leave the stack as it was.
-/

set_option autoImplicit false

namespace SheepScene

/-- A stack of at most `capacity` values; the top is at the end. -/
structure Stack (capacity : Nat) where
  values : Array Value
  size_le : values.size ≤ capacity

namespace Stack

variable {capacity : Nat}

/-- The stack without values. -/
def empty : Stack capacity :=
  ⟨#[], Nat.zero_le _⟩

/-- How many values there are. -/
def size (s : Stack capacity) : Nat :=
  s.values.size

/-- Whether there is no value. -/
def isEmpty (s : Stack capacity) : Bool :=
  s.values.isEmpty

/-- Puts a value on top. -/
def push (s : Stack capacity) (v : Value) : Except Fault (Stack capacity) :=
  if h : s.values.size < capacity then
    .ok ⟨s.values.push v, by rw [Array.size_push]; omega⟩
  else .error (.overflow capacity)

/-- The value on top. -/
def top? (s : Stack capacity) : Option Value :=
  s.values.back?

/-- The stack without its `n` topmost values; empty if it has no more. -/
def without (s : Stack capacity) (n : Nat) : Stack capacity :=
  ⟨s.values.take (s.values.size - n), by
    have := s.size_le
    simp only [Array.take_eq_extract, Array.size_extract]
    omega⟩

/-- What is left when values are taken off. -/
@[simp] theorem size_without (s : Stack capacity) (n : Nat) :
    (s.without n).size = s.size - n := by
  simp only [size, without, Array.take_eq_extract, Array.size_extract]
  omega

/-- A push succeeds just when there is room, and puts the value on top. -/
theorem push_eq_ok_iff {s t : Stack capacity} {v : Value} :
    s.push v = .ok t ↔ s.size < capacity ∧ t.values = s.values.push v := by
  obtain ⟨values, _⟩ := t
  unfold push size
  split
  · simp_all [eq_comm]
  · simp
    omega

/-- A push fails just when the stack is full. -/
theorem push_eq_error_iff {s : Stack capacity} {v : Value} {f : Fault} :
    s.push v = .error f ↔ s.size = capacity ∧ f = .overflow capacity := by
  have := s.size_le
  unfold push size
  split
  · simp
    omega
  · simp [eq_comm]
    omega

/-- Takes the top value off. -/
def pop (s : Stack capacity) : Except Fault (Value × Stack capacity) :=
  match s.top? with
  | some v => .ok (v, s.without 1)
  | none => .error .underflow

/-- Takes `n` values off. -/
def drop (s : Stack capacity) (n : Nat) : Except Fault (Stack capacity) :=
  if n ≤ s.size then .ok (s.without n) else .error (.shortDrop n s.size)

/-- The `n` topmost values in the order in which they were pushed. -/
def topmost (s : Stack capacity) (n : Nat) : List Value :=
  (s.values.extract (s.values.size - n) s.values.size).toList

end Stack

end SheepScene
