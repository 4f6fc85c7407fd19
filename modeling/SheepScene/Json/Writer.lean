import SheepScene.Json.Basic
import SheepScene.Text.Columns

/-!
# Writing JSON

`compact` writes a value on one line without blanks; `pretty` writes one element or field per line,
indented by two blanks for each level. What is no text is written as `null`.
-/

set_option autoImplicit false

namespace SheepScene.Json

/-- One character of a string: quotes, backslashes and control characters are escaped. -/
def escapeChar (c : Char) : List Char :=
  if c = '"' then ['\\', '"']
  else if c = '\\' then ['\\', '\\']
  else if c = '\x08' then ['\\', 'b']
  else if c = '\x0c' then ['\\', 'f']
  else if c = '\n' then ['\\', 'n']
  else if c = '\r' then ['\\', 'r']
  else if c = '\t' then ['\\', 't']
  else if c.toNat < 0x20 then '\\' :: 'u' :: Text.hexDigits 4 c.toNat
  else [c]

/-- A string between quotes. -/
def quote (s : String) : String :=
  String.ofList ('"' :: (s.toList.flatMap escapeChar ++ ['"']))

/-- Elements between brackets, separated by commas. -/
def between (opening : String) (elements : List String) (closing : String) : String :=
  opening ++ ",".intercalate elements ++ closing

mutual

/-- A value on one line. -/
def compact : Json → String
  | .null | .unreadable => "null"
  | .bool b => if b then "true" else "false"
  | .number literal => literal
  | .string text => quote text
  | .array items => between "[" (compactItems items) "]"
  | .object fields => between "\x7b" (compactFields fields) "\x7d"

/-- The elements of an array, each on one line. -/
def compactItems : List Json → List String
  | [] => []
  | item :: rest => compact item :: compactItems rest

/-- The fields of an object, each on one line. -/
def compactFields : List (String × Json) → List String
  | [] => []
  | (key, value) :: rest => (quote key ++ ":" ++ compact value) :: compactFields rest

end

/-- A new line at a level of indentation. -/
def newLine (level : Nat) : String :=
  String.ofList ('\n' :: List.replicate (2 * level) ' ')

/-- Elements one per line between brackets; no line at all for none. -/
def block (level : Nat) (opening : String) (elements : List String) (closing : String) : String :=
  match elements with
  | [] => opening ++ closing
  | _ =>
    let lines := ("," ++ newLine (level + 1)).intercalate elements
    opening ++ newLine (level + 1) ++ lines ++ newLine level ++ closing

mutual

/-- A value over several lines, at a level of indentation. -/
def prettyAt (level : Nat) : Json → String
  | .array items => block level "[" (prettyItems (level + 1) items) "]"
  | .object fields => block level "\x7b" (prettyFields (level + 1) fields) "\x7d"
  | .null | .unreadable => "null"
  | .bool b => if b then "true" else "false"
  | .number literal => literal
  | .string text => quote text

/-- The elements of an array at their level. -/
def prettyItems (level : Nat) : List Json → List String
  | [] => []
  | item :: rest => prettyAt level item :: prettyItems level rest

/-- The fields of an object at their level. -/
def prettyFields (level : Nat) : List (String × Json) → List String
  | [] => []
  | (key, value) :: rest => (quote key ++ ": " ++ prettyAt level value) :: prettyFields level rest

end

/-- A value over several lines. -/
def pretty (value : Json) : String :=
  prettyAt 0 value

end SheepScene.Json
