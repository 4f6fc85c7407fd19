import SheepScene.Number.Shortest

/-!
# Text of floats

The digits of a float are always its shortest decimal. A `FloatLayout` says how they are written:
where positional notation ends, whether a whole number keeps a fraction, how exponents, signs of
zero and the special values look, and which of two equally near shortest decimals is taken. The four
layouts of the project stand at the end.
-/

set_option autoImplicit false

namespace SheepScene

/-- The choices a notation makes beyond the digits. -/
structure FloatLayout where
  tie : Tie
  /-- The exponents of a leading digit that are written positionally; `none` for all. -/
  positional : Option (Int × Int)
  /-- Whether a whole number is written with `.0`. -/
  wholeFraction : Bool
  /-- Whether a positive exponent is marked with a plus. -/
  plusExponent : Bool
  /-- Whether a negative zero keeps its sign. -/
  signedZero : Bool
  notANumber : String
  infinite : Bool → String

namespace FloatLayout

/-- The digits with the point where the exponent puts it. -/
def pointed (digits : List Char) (exponent : Int) (wholeFraction : Bool) : List Char :=
  let tail := if wholeFraction then ".0".toList else []
  if 0 ≤ exponent then
    digits ++ List.replicate exponent.toNat '0' ++ tail
  else
    let places := (-exponent).toNat
    if places < digits.length then
      digits.take (digits.length - places) ++ '.' :: digits.drop (digits.length - places)
    else
      '0' :: '.' :: List.replicate (places - digits.length) '0' ++ digits

/-- One digit before the point, the others after it, and the exponent. -/
def scientific (digits : List Char) (leading : Int) (plusExponent : Bool) : List Char :=
  let fraction := if digits.length ≤ 1 then [] else '.' :: digits.drop 1
  let sign := if leading < 0 then ['-'] else if plusExponent then ['+'] else []
  digits.take 1 ++ fraction ++ 'e' :: sign ++ Nat.toDigits 10 leading.natAbs

/-- The text of a positive decimal. -/
def unsigned (layout : FloatLayout) (d : Decimal) : List Char :=
  match layout.positional with
  | none => pointed d.digits d.exponent layout.wholeFraction
  | some (least, greatest) =>
    if least ≤ d.leading ∧ d.leading ≤ greatest then
      pointed d.digits d.exponent layout.wholeFraction
    else scientific d.digits d.leading layout.plusExponent

/-- The text of a float. -/
def write (layout : FloatLayout) (x : Float32) : String :=
  match Binary32.read x with
  | .notANumber => layout.notANumber
  | .infinite negative => layout.infinite negative
  | .finite negative significand exponent =>
    if significand = 0 then
      let sign := if negative && layout.signedZero then ['-'] else []
      String.ofList (sign ++ pointed ['0'] 0 layout.wholeFraction)
    else
      let sign := if negative then ['-'] else []
      String.ofList (sign ++ layout.unsigned (Decimal.shortest layout.tie significand exponent))

/-- Values in scripts, listings and settings: always positional, a whole number without a point. -/
def plain : FloatLayout where
  tie := .up
  positional := none
  wholeFraction := false
  plusExponent := false
  signedZero := true
  notANumber := "NaN"
  infinite negative := if negative then "-inf" else "inf"

/-- Coordinates: as `plain`, but zero has no sign. -/
def coordinate : FloatLayout :=
  { plain with signedZero := false }

/-- Numbers in saved scripts: positional from a millionth to below ten million million; what is
not finite has no number and is `null`. -/
def json : FloatLayout where
  tie := .toEven
  positional := some (-6, 12)
  wholeFraction := true
  plusExponent := true
  signedZero := true
  notANumber := "null"
  infinite _ := "null"

/-- Fields of a record that is written out: positional from a ten-thousandth to below ten
thousand million million, a whole number with `.0`. -/
def field : FloatLayout where
  tie := .up
  positional := some (-4, 15)
  wholeFraction := true
  plusExponent := false
  signedZero := true
  notANumber := "NaN"
  infinite negative := if negative then "-inf" else "inf"

end FloatLayout

end SheepScene
