import SheepScene.Sheep.Instruction
import SheepScene.Text.Case

/-!
# Operators on values

Conversions between kinds, and the binary operators. An operator works on floats as soon as its
flavour or one operand is a float; strings can be joined with anything and compared with each
other, without regard to case.
-/

set_option autoImplicit false

namespace SheepScene

namespace Value

/-- The error of an operand that an operation cannot take. -/
def mismatch (pc : Nat) (operation : String) (v : Value) : ScriptError :=
  .typeMismatch pc operation v.kind

/-- The text of a value: numbers as they are shown, strings as they are. -/
def toText (table : Array String) (pc : Nat) (v : Value) : Except ScriptError String :=
  match v with
  | .string s => .ok s
  | .offset i => match table[i.toNat]? with
    | some s => .ok s
    | none => .error (.badStringOffset pc i)
  | .int _ | .float _ => .ok v.text

/-- A value as one of the given kind: numbers convert into each other, offsets into their text. -/
def coerce (table : Array String) (pc : Nat) (operation : String) (kind : Kind) (v : Value) :
    Except ScriptError Value :=
  match kind with
  | .int => match v.toInt? with
    | some n => .ok (.int n)
    | none => .error (v.mismatch pc operation)
  | .float => match v.toFloat? with
    | some x => .ok (.float x)
    | none => .error (v.mismatch pc operation)
  | .string =>
    if v.isString then (v.toText table pc).map .string else .error (v.mismatch pc operation)

/-- A truth value. -/
def ofBool (b : Bool) : Value :=
  .int (if b then 1 else 0)

/-- What stands for the answer of a function that gives none. -/
def default : Kind → Value
  | .int => .int 0
  | .float => .float 0
  | .string => .string ""

end Value

/-- The order of two floats, if both are numbers. -/
def compareFloats (x y : Float32) : Option Ordering :=
  if x < y then some .lt
  else if y < x then some .gt
  else if x == y then some .eq
  else none

namespace BinaryOp

/-- Whether a comparison holds of operands in the given order; `none` if they have none. -/
def holds (op : BinaryOp) (order : Option Ordering) : Bool :=
  match op with
  | .isEqual => order == some .eq
  | .notEqual => order != some .eq
  | .isGreater => order == some .gt
  | .isLess => order == some .lt
  | .isGreaterEqual => order == some .gt || order == some .eq
  | .isLessEqual => order == some .lt || order == some .eq
  | _ => false

/-- An operator on floats. -/
def onFloats (op : BinaryOp) (x y : Float32) : Value :=
  match op with
  | .add => .float (x + y)
  | .subtract => .float (x - y)
  | .multiply => .float (x * y)
  | .divide => .float (x / y)
  | _ => .ofBool (op.holds (compareFloats x y))

/-- An operator on integers, which wrap around; division goes toward zero. -/
def onInts (op : BinaryOp) (pc : Nat) (x y : Int32) : Except ScriptError Value :=
  match op with
  | .add => .ok (.int (x + y))
  | .subtract => .ok (.int (x - y))
  | .multiply => .ok (.int (x * y))
  | .divide => if y = 0 then .error (.divideByZero pc) else .ok (.int (x / y))
  | _ => .ok (.ofBool (op.holds (some (compare x.toInt y.toInt))))

/-- An operator where at least one operand is a string. -/
def onStrings (op : BinaryOp) (table : Array String) (pc : Nat) (a b : Value) :
    Except ScriptError Value := do
  if op = .add then
    return .string ((← a.toText table pc) ++ (← b.toText table pc))
  else if op.isComparison && a.isString && b.isString then
    let order := Text.compareFolded (← a.toText table pc) (← b.toText table pc)
    return .ofBool (op.holds (some order))
  else
    throw ((if a.isString then a else b).mismatch pc op.name)

/-- The answer of an operator of a flavour. -/
def apply (op : BinaryOp) (flavour : Numeric) (table : Array String) (pc : Nat) (a b : Value) :
    Except ScriptError Value :=
  match a, b with
  | .int x, .int y =>
    match flavour with
    | .int => op.onInts pc x y
    | .float => .ok (op.onFloats (Binary32.ofInt32 x) (Binary32.ofInt32 y))
  | .int x, .float y => .ok (op.onFloats (Binary32.ofInt32 x) y)
  | .float x, .int y => .ok (op.onFloats x (Binary32.ofInt32 y))
  | .float x, .float y => .ok (op.onFloats x y)
  | _, _ => op.onStrings table pc a b

end BinaryOp

end SheepScene
