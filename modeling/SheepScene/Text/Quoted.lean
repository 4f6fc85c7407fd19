import SheepScene.Text.Columns
import SheepScene.Text.Invisible

/-!
# Quoted text in listings

A text between double quotes on one line: quotes, backslashes and the usual controls have short
forms, every other character without a shape of its own is written by its number.
-/

set_option autoImplicit false

namespace SheepScene.Text

/-- One character of a quoted text. -/
def quoteChar (c : Char) : List Char :=
  if c = '\t' then ['\\', 't']
  else if c = '\r' then ['\\', 'r']
  else if c = '\n' then ['\\', 'n']
  else if c = '\x00' then ['\\', '0']
  else if c = '\\' then ['\\', '\\']
  else if c = '"' then ['\\', '"']
  else if isInvisible c then '\\' :: 'u' :: '\x7b' :: (hexDigits 1 c.toNat ++ ['\x7d'])
  else [c]

/-- The text between quotes. -/
def quoted (s : String) : String :=
  String.ofList ('"' :: (s.toList.flatMap quoteChar ++ ['"']))

end SheepScene.Text
