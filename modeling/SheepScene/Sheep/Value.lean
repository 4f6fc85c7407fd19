import SheepScene.Number.Layout

/-!
# Values of the script language

A value is an integer, a float, or a string. A string is either the text itself or an offset into
the string table of the script, which stands for the text until something needs it.
-/

set_option autoImplicit false

namespace SheepScene

/-- What a value is to the language; both forms of a string are strings. -/
inductive Kind where
  | int
  | float
  | string
  deriving DecidableEq, Repr

/-- The name of a kind in listings and messages. -/
def Kind.name : Kind → String
  | .int => "int"
  | .float => "float"
  | .string => "string"

/-- A value on a stack, in a variable, or passed to a host function. -/
inductive Value where
  | int (n : Int32)
  | float (x : Float32)
  /-- An entry of the script's string table. -/
  | offset (index : UInt32)
  | string (text : String)
  deriving DecidableEq

namespace Value

instance : Inhabited Value :=
  ⟨.int 0⟩

/-- The kind of a value. -/
def kind : Value → Kind
  | .int _ => .int
  | .float _ => .float
  | .offset _ | .string _ => .string

/-- Whether a value is a string in either form. -/
def isString (v : Value) : Bool :=
  v.kind = .string

/-- The integer, of an integer only. -/
def asInt? : Value → Option Int32
  | .int n => some n
  | _ => none

/-- The float, of a float only. -/
def asFloat? : Value → Option Float32
  | .float x => some x
  | _ => none

/-- The text, of a string that holds its text. -/
def asString? : Value → Option String
  | .string s => some s
  | _ => none

/-- The number as an integer: a float loses its fraction and stops at the bounds. -/
def toInt? : Value → Option Int32
  | .int n => some n
  | .float x => some (Binary32.toInt32 x)
  | _ => none

/-- The number as a float. -/
def toFloat? : Value → Option Float32
  | .int n => some (Binary32.ofInt32 n)
  | .float x => some x
  | _ => none

/-- The text of a string, looked up in the table where it is an offset. -/
def resolve? (table : Array String) : Value → Option String
  | .string s => some s
  | .offset i => table[i.toNat]?
  | _ => none

/-- Numbers are true unless they are zero, strings unless they are empty or outside the table. -/
def isTrue (table : Array String) : Value → Bool
  | .int n => n != 0
  | .float x => x != 0
  | v => match v.resolve? table with
    | some s => !s.isEmpty
    | none => false

/-- How a value is shown: strings between quotes as they are, offsets behind an at sign. -/
def text : Value → String
  | .int n => toString n.toInt
  | .float x => FloatLayout.plain.write x
  | .offset i => "@" ++ toString i.toNat
  | .string s => "\"" ++ s ++ "\""

end Value

end SheepScene
