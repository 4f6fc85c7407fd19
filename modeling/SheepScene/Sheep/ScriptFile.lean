import SheepScene.Json.Reader
import SheepScene.Json.Writer
import SheepScene.Sheep.Script

/-!
# Scripts as JSON

A saved script is an object with one field per table. Reading is more liberal than writing: tables
may be missing, unknown fields are skipped, and a record may be an array of its fields in order. A
float that is not finite is saved as `null`, which cannot be read again.
-/

set_option autoImplicit false

namespace SheepScene

/-- An unsigned number below a bound. -/
def Json.natBelow? (bound : Nat) (j : Json) : Option Nat := do
  let n ← j.int?
  if 0 ≤ n ∧ n < bound then some n.toNat else none

/-- An unsigned 32-bit number. -/
def Json.word? (j : Json) : Option UInt32 :=
  (j.natBelow? UInt32.size).map UInt32.ofNat

/-- The fields of a record in the given order, from an object or from an array of all of them; a
field that is missing is `none`, a repeated one is refused. -/
def Json.record? (keys : List String) : Json → Option (List (Option Json))
  | .object fields => keys.mapM fun key => Json.uniqueField? fields key
  | .array items => if items.length = keys.length then some (items.map some) else none
  | _ => none

namespace Value

/-- A value as an object with one field, named for the form of the value. -/
def toJson : Value → Json
  | .int n => .object [("Int", .ofInt n.toInt)]
  | .float x =>
    let text := FloatLayout.json.write x
    .object [("Float", if text = FloatLayout.json.notANumber then .null else .number text)]
  | .offset i => .object [("StringOffset", .ofNat i.toNat)]
  | .string s => .object [("String", .string s)]

/-- The value of an object with exactly one field. -/
def ofJson? : Json → Option Value
  | .object [("Int", j)] => do
    let n ← j.int?
    if Int32.minValue.toInt ≤ n ∧ n ≤ Int32.maxValue.toInt then some (.int (Int32.ofInt n)) else none
  | .object [("Float", .number literal)] =>
    ((Numeral.ofString? literal).bind Numeral.toFloat?).map .float
  | .object [("StringOffset", j)] => j.word?.map .offset
  | .object [("String", j)] => j.string?.map .string
  | _ => none

end Value

namespace Variable

/-- A variable as an object. -/
def toJson (v : Variable) : Json :=
  .object [("name", .string v.name), ("initial", v.initial.toJson)]

/-- The variable of a record. -/
def ofJson? (j : Json) : Option Variable :=
  match j.record? ["name", "initial"] with
  | some [some name, some initial] => do
    return { name := ← name.string?, initial := ← Value.ofJson? initial }
  | _ => none

end Variable

namespace EntryPoint

/-- A function as an object. -/
def toJson (f : EntryPoint) : Json :=
  .object [("name", .string f.name), ("offset", .ofNat f.offset.toNat)]

/-- The function of a record. -/
def ofJson? (j : Json) : Option EntryPoint :=
  match j.record? ["name", "offset"] with
  | some [some name, some offset] => do
    return { name := ← name.string?, offset := ← offset.word? }
  | _ => none

end EntryPoint

namespace Import

/-- An import as an object. -/
def toJson (i : Import) : Json :=
  .object [("name", .string i.name), ("arg_count", .ofNat i.argCount.toNat)]

/-- The import of a record. -/
def ofJson? (j : Json) : Option Import :=
  match j.record? ["name", "arg_count"] with
  | some [some name, some argCount] => do
    return { name := ← name.string?, argCount := ← argCount.word? }
  | _ => none

end Import

namespace Script

/-- A table of a script: an array, or nothing for a field that is missing. -/
def tableOfJson? {α : Type} (element : Json → Option α) : Option Json → Option (Array α)
  | none => some #[]
  | some j => do return (← (← j.array?).mapM element).toArray

/-- A script as an object. -/
def toJson (s : Script) : Json :=
  let table {α : Type} (element : α → Json) (items : Array α) : Json :=
    .array (items.toList.map element)
  .object
    [("name", .string s.name),
      ("strings", table .string s.strings),
      ("variables", table Variable.toJson s.vars),
      ("functions", table EntryPoint.toJson s.functions),
      ("imports", table Import.toJson s.imports),
      ("bytecode", table (fun byte => .ofNat byte.toNat) s.bytecode)]

/-- The script of a record; its name and its code have to be there. -/
def ofJson? (j : Json) : Option Script :=
  match j.record? ["name", "strings", "variables", "functions", "imports", "bytecode"] with
  | some [some name, strings, vars, functions, imports, some bytecode] => do
    return {
      name := ← name.string?
      strings := ← tableOfJson? Json.string? strings
      vars := ← tableOfJson? Variable.ofJson? vars
      functions := ← tableOfJson? EntryPoint.ofJson? functions
      imports := ← tableOfJson? Import.ofJson? imports
      bytecode := ← tableOfJson? (fun byte => (byte.natBelow? 256).map UInt8.ofNat) bytecode }
  | _ => none

/-- The text of a saved script. -/
def save (s : Script) : String :=
  s.toJson.pretty

/-- The script that a text holds. -/
def load? (text : String) : Option Script :=
  (Json.parse? text).bind ofJson?

end Script

end SheepScene
