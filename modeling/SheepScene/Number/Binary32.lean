/-!
# Binary32 numbers as exact values

A 32-bit float is a sign, a significand and a power of two, or it is infinite, or it is not a
number. `Binary32.read` takes it apart, and the conversions that have to be exact (truncation to an
integer, floor, rounding a half away from zero, rounding from binary64) are stated on the parts,
so that they can be evaluated and reasoned about without the hardware.
-/

set_option autoImplicit false

namespace SheepScene

/-- What a float stands for; a finite one is `±significand · 2 ^ exponent`. -/
inductive FloatParts where
  | notANumber
  | infinite (negative : Bool)
  | finite (negative : Bool) (significand : Nat) (exponent : Int)
  deriving DecidableEq, Repr

namespace FloatParts

/-- Takes a bit pattern apart: a sign bit, `exponentBits` bits of exponent, `fractionBits` bits of
fraction. The smallest exponent field means a significand without its leading one. -/
def ofBits (exponentBits fractionBits : Nat) (bits : Nat) : FloatParts :=
  let negative := bits / Nat.pow 2 (exponentBits + fractionBits) % 2 == 1
  let field := bits / Nat.pow 2 fractionBits % Nat.pow 2 exponentBits
  let fraction := bits % Nat.pow 2 fractionBits
  let bias : Int := Nat.pow 2 (exponentBits - 1) - 1 + fractionBits
  if field = Nat.pow 2 exponentBits - 1 then
    if fraction = 0 then .infinite negative else .notANumber
  else if field = 0 then
    .finite negative fraction (1 - bias)
  else
    .finite negative (fraction + Nat.pow 2 fractionBits) (field - bias)

/-- The integer part of a finite value, toward zero. -/
def truncate (negative : Bool) (significand : Nat) (exponent : Int) : Int :=
  let magnitude :=
    if 0 ≤ exponent then significand * Nat.pow 2 exponent.toNat
    else significand / Nat.pow 2 (-exponent).toNat
  if negative then -(magnitude : Int) else magnitude

end FloatParts

namespace Binary32

/-- The parts of a 32-bit float. -/
def read (x : Float32) : FloatParts :=
  FloatParts.ofBits 8 23 x.toBits.toNat

/-- The parts of a 64-bit float. -/
def readDouble (x : Float) : FloatParts :=
  FloatParts.ofBits 11 52 x.toBits.toNat

/-- Zero with the given sign. -/
def zero (negative : Bool) : Float32 :=
  if negative then Float32.ofBits 0x80000000 else Float32.ofBits 0

/-- Infinity with the given sign. -/
def infinity (negative : Bool) : Float32 :=
  if negative then Float32.ofBits 0xff800000 else Float32.ofBits 0x7f800000

/-- The float that is not a number. -/
def notANumber : Float32 :=
  Float32.ofBits 0x7fc00000

/-- Truncation to a 32-bit integer: values out of range stop at the nearer bound, and what is not a
number becomes zero. -/
def toInt32 (x : Float32) : Int32 :=
  match read x with
  | .notANumber => 0
  | .infinite negative => if negative then Int32.minValue else Int32.maxValue
  | .finite negative significand exponent =>
    let whole := FloatParts.truncate negative significand exponent
    if whole < Int32.minValue.toInt then Int32.minValue
    else if Int32.maxValue.toInt < whole then Int32.maxValue
    else Int32.ofInt whole

/-- The float nearest to a 32-bit integer. -/
def ofInt32 (n : Int32) : Float32 :=
  Float32.ofInt n.toInt

/-- A whole number as a float, where a zero keeps the sign it is given. -/
def ofWhole (negative : Bool) (whole : Int) : Float32 :=
  if whole = 0 then zero negative else Float32.ofInt whole

/-- The largest whole number that is not above `x`. -/
def floor (x : Float32) : Float32 :=
  match read x with
  | .finite negative significand exponent =>
    if 0 ≤ exponent then x
    else
      let unit := Nat.pow 2 (-exponent).toNat
      if negative then ofWhole true (-(((significand + unit - 1) / unit : Nat) : Int))
      else ofWhole false (significand / unit : Nat)
  | _ => x

/-- The nearest whole number; a half goes away from zero. -/
def round (x : Float32) : Float32 :=
  match read x with
  | .finite negative significand exponent =>
    if 0 ≤ exponent then x
    else
      let unit := Nat.pow 2 (-exponent).toNat
      let whole : Nat := (2 * significand + unit) / (2 * unit)
      ofWhole negative (if negative then -(whole : Int) else whole)
  | _ => x

/-- The 32-bit float nearest to a 64-bit one, ties to the even significand. -/
def ofDouble (x : Float) : Float32 :=
  match readDouble x with
  | .notANumber => notANumber
  | .infinite negative => infinity negative
  | .finite negative significand exponent =>
    if significand = 0 then zero negative
    else
      let sign : Float.Model.UnpackedFloat.Sign := if negative then .negative else .positive
      .ofModel (.pack (.round .binary32 sign significand exponent))

end Binary32

end SheepScene
