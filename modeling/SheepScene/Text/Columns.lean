/-!
# Numbers and names in columns

Padding to a width, and hexadecimal numerals with at least a given count of digits.
-/

set_option autoImplicit false

namespace SheepScene.Text

/-- Blanks before a text, up to `width` characters. -/
def alignRight (width : Nat) (s : String) : String :=
  String.ofList (List.replicate (width - s.length) ' ') ++ s

/-- Blanks after a text, up to `width` characters. -/
def alignLeft (width : Nat) (s : String) : String :=
  s ++ String.ofList (List.replicate (width - s.length) ' ')

/-- The hexadecimal digits of a number, small letters, with zeros in front up to `width`. -/
def hexDigits (width n : Nat) : List Char :=
  let digits := Nat.toDigits 16 n
  List.replicate (width - digits.length) '0' ++ digits

/-- A position in the code: `0x` and at least four digits. -/
def address (n : Nat) : String :=
  String.ofList ('0' :: 'x' :: hexDigits 4 n)

/-- A byte: `0x` and two capital digits. -/
def byte (n : Nat) : String :=
  String.ofList ('0' :: 'x' :: (hexDigits 2 n).map Char.toUpper)

end SheepScene.Text
