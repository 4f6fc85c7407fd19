import SheepScene.Number.Reading

/-!
# JSON values

Numbers are kept as they were written, so that nothing is lost between reading and writing; objects
keep their fields in order, repeated ones included. A string may be well formed and yet be no text,
where half of a surrogate pair stands alone: such a value can be skipped but not used.
-/

set_option autoImplicit false

namespace SheepScene

/-- A JSON value. -/
inductive Json where
  | null
  | bool (b : Bool)
  | number (literal : String)
  | string (text : String)
  | array (items : List Json)
  | object (fields : List (String × Json))
  /-- A string that is no text, or an object with such a key. -/
  | unreadable
  deriving Inhabited

namespace Json

/-- An integer as a value. -/
def ofInt (n : Int) : Json :=
  .number (toString n)

/-- A natural number as a value. -/
def ofNat (n : Nat) : Json :=
  .number (toString n)

/-- The integer of a number that was written as one. -/
def int? : Json → Option Int
  | .number literal => (Numeral.ofString? literal).bind Numeral.toInt?
  | _ => none

/-- The text of a string. -/
def string? : Json → Option String
  | .string text => some text
  | _ => none

/-- The elements of an array. -/
def array? : Json → Option (List Json)
  | .array items => some items
  | _ => none

/-- A string, if it is a text. -/
def ofText : Option String → Json
  | some text => .string text
  | none => .unreadable

/-- The object of some fields, if all of their keys are texts. -/
def ofFields (fields : List (Option String × Json)) : Json :=
  match fields.mapM fun f => f.1.map (·, f.2) with
  | some fields => .object fields
  | none => .unreadable

/-- The value of a field that occurs once, `some none` for one that does not occur, and `none` for
one that is repeated. -/
def uniqueField? (fields : List (String × Json)) (key : String) : Option (Option Json) :=
  match fields.filter fun f => f.1 == key with
  | [] => some none
  | [f] => some (some f.2)
  | _ => none

end Json

end SheepScene
