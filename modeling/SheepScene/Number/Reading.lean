import SheepScene.Number.Binary32

/-!
# Decimal numerals

`Numeral.scan` reads the longest numeral at the head of a text: an optional minus, digits without
superfluous zeros in front, a fraction, an exponent. The conversions say what number it stands for:
an integer only when it was written as one, and always a float. There are two ways to a float, the
nearest one, and the one that a reader finds that works in words and in 64-bit floats and rounds at
each step.
-/

set_option autoImplicit false

namespace SheepScene

/-- A number as it is written in decimal. -/
structure Numeral where
  negative : Bool
  /-- The digits before the point. -/
  whole : List Char
  /-- The digits behind the point. -/
  fraction : List Char
  /-- The power of ten behind the digits, if there is one. -/
  power : Option Int
  deriving DecidableEq, Repr

namespace Numeral

/-- The value of a list of decimal digits. -/
def ofDigits (digits : List Char) : Nat :=
  digits.foldl (fun n c => 10 * n + (c.toNat - '0'.toNat)) 0

/-- The digits at the head of a text, and the rest. -/
def spanDigits (s : List Char) : List Char × List Char :=
  s.span Char.isDigit

/-- The digits before the point: a zero, or digits that do not start with one. -/
def scanWhole (s : List Char) : Option (List Char × List Char) :=
  match s with
  | '0' :: rest => some (['0'], rest)
  | _ => match spanDigits s with
    | ([], _) => none
    | found => some found

/-- A point with at least one digit, or nothing. -/
def scanFraction (s : List Char) : Option (List Char × List Char) :=
  match s with
  | '.' :: rest => match spanDigits rest with
    | ([], _) => none
    | found => some found
  | _ => some ([], s)

/-- An exponent with at least one digit, or nothing. -/
def scanExponent (s : List Char) : Option (Option Int × List Char) :=
  match s with
  | e :: rest =>
    if e = 'e' ∨ e = 'E' then
      let (negative, rest) := match rest with
        | '-' :: rest => (true, rest)
        | '+' :: rest => (false, rest)
        | _ => (false, rest)
      match spanDigits rest with
      | ([], _) => none
      | (digits, rest) =>
        let n : Int := ofDigits digits
        some (some (if negative then -n else n), rest)
    else some (none, s)
  | [] => some (none, s)

/-- The numeral at the head of a text, and the rest. -/
def scan (s : List Char) : Option (Numeral × List Char) := do
  let (negative, s) := match s with
    | '-' :: rest => (true, rest)
    | _ => (false, s)
  let (whole, s) ← scanWhole s
  let (fraction, s) ← scanFraction s
  let (power, s) ← scanExponent s
  return ({ negative, whole, fraction, power }, s)

/-- The numeral that is the whole of a text. -/
def ofString? (s : String) : Option Numeral :=
  match scan s.toList with
  | some (n, []) => some n
  | _ => none

/-- All digits as one number. -/
def coefficient (n : Numeral) : Nat :=
  ofDigits (n.whole ++ n.fraction)

/-- The power of ten by which the coefficient is multiplied. -/
def exponent (n : Numeral) : Int :=
  n.power.getD 0 - n.fraction.length

/-- The integer that a numeral was written as; a zero with a minus is no integer. -/
def toInt? (n : Numeral) : Option Int :=
  if n.fraction.isEmpty && n.power.isNone && !(n.negative && n.coefficient == 0) then
    some (if n.negative then -(n.coefficient : Int) else n.coefficient)
  else none

/-! ## The nearest float -/

/-- A power of ten that no float reaches, and whose inverse no float distinguishes from zero. -/
def beyond : Int := 400

/-- The exponent with which a numeral is converted. Far out on either side all numerals with the
same digits become the same float, so that the exponent is brought to a bounded range. -/
def boundedExponent (n : Numeral) : Int :=
  let digits : Int := (Nat.toDigits 10 n.coefficient).length
  max (-beyond - digits) (min n.exponent beyond)

/-- The magnitude of a numeral in a type of floats that reads decimals. -/
def magnitude {F : Type} (ofScientific : Nat → Bool → Nat → F) (n : Numeral) : F :=
  let exponent := n.boundedExponent
  ofScientific n.coefficient (decide (exponent < 0)) exponent.natAbs

/-- The 64-bit float nearest to a numeral. -/
def toDouble (n : Numeral) : Float :=
  let x := n.magnitude Float.ofScientific
  if n.negative then -x else x

/-- The 32-bit float nearest to a numeral. -/
def toSingle (n : Numeral) : Float32 :=
  let x := n.magnitude Float32.ofScientific
  if n.negative then -x else x

/-! ## The float found in steps -/

/-- Appends digits to a number as long as it fits a 64-bit word; the number, and how many digits
are left over. -/
def fill (n : Nat) : List Char → Nat × Nat
  | [] => (n, 0)
  | c :: rest =>
    let next := 10 * n + ofDigits [c]
    if next < UInt64.size then fill next rest else (n, rest.length + 1)

/-- What digits are appended to stays a word. -/
theorem fill_lt {n : Nat} (h : n < UInt64.size) (digits : List Char) :
    (fill n digits).1 < UInt64.size := by
  induction digits generalizing n with
  | nil => exact h
  | cons c rest ih =>
    simp only [fill]
    split
    · next fits => exact ih fits
    · exact h

/-- The leading digits of a numeral as a word, and the power of ten by which it is multiplied. Left
over digits before the point count as zeros, those behind it not at all. -/
def scaledWord (n : Numeral) : Nat × Int :=
  let (head, zeros) := fill 0 n.whole
  let (word, ignored) := fill head n.fraction
  (word, n.power.getD 0 + zeros - (n.fraction.length - ignored : Nat))

/-- The largest power of ten that is a 64-bit float. -/
def greatestPower : Nat := 308

/-- The 64-bit float nearest to a power of ten. -/
def powerOfTen (n : Nat) : Float :=
  Float.ofScientific 1 false n

/-- A 64-bit float divided by a power of ten, in several steps where the power is no float. -/
def divideByPower (x : Float) (n : Nat) : Float :=
  if n ≤ greatestPower then x / powerOfTen n
  else if x == 0 then x
  else divideByPower (x / powerOfTen greatestPower) (n - greatestPower)
termination_by n
decreasing_by
  simp only [greatestPower] at *
  omega

/-- The magnitude of a numeral, unless it is too large: the leading digits as a 64-bit float,
multiplied or divided by the power of ten. -/
def steppedMagnitude? (n : Numeral) : Option Float :=
  let (word, exponent) := n.scaledWord
  let x := Float.ofScientific word false 0
  if exponent < 0 then some (divideByPower x exponent.natAbs)
  else if word = 0 then some x
  else if exponent ≤ greatestPower then
    let scaled := x * powerOfTen exponent.natAbs
    if scaled.isInf then none else some scaled
  else none

/-- The 64-bit float that is found in steps, unless the number is too large. -/
def toDouble? (n : Numeral) : Option Float :=
  n.steppedMagnitude?.map fun x => if n.negative then -x else x

/-- The 32-bit float of a numeral, unless it is too large. An integer that fits a 64-bit word is
rounded once, every other number by way of the 64-bit float that is found in steps. -/
def toFloat? (n : Numeral) : Option Float32 :=
  match n.toInt? with
  | some whole =>
    if Int64.minValue.toInt ≤ whole ∧ whole < UInt64.size then some (Float32.ofInt whole)
    else n.toDouble?.map Binary32.ofDouble
  | none => n.toDouble?.map Binary32.ofDouble

/-! ## Free forms -/

/-- The sign at the head of a text, where a plus may stand too, and the rest. -/
def scanSign (s : List Char) : Bool × List Char :=
  match s with
  | '-' :: rest => (true, rest)
  | '+' :: rest => (false, rest)
  | _ => (false, s)

/-- A numeral that is the whole of a text, in a free form: zeros may come first, and the digits may
be missing on one side of the point. -/
def ofFreeForm? (negative : Bool) (s : List Char) : Option Numeral := do
  let (whole, rest) := spanDigits s
  let (fraction, rest) := match rest with
    | '.' :: rest => spanDigits rest
    | _ => ([], rest)
  if whole.isEmpty && fraction.isEmpty then none
  let (power, rest) ← scanExponent rest
  if !rest.isEmpty then none
  return { negative, whole, fraction, power }

/-- A float as people write it: a numeral in free form, or the name of infinity or of what is not a
number in any case. The numeral is converted by `convert`. -/
def freeFloat? (convert : Numeral → Float32) (s : String) : Option Float32 :=
  let (negative, rest) := scanSign s.toList
  let word := String.ofList (rest.map Char.toLower)
  if word = "inf" ∨ word = "infinity" then some (Binary32.infinity negative)
  else if word = "nan" then some Binary32.notANumber
  else (ofFreeForm? negative rest).map convert

/-- An integer as people write it: digits with a sign or without. -/
def freeInt? (s : String) : Option Int :=
  let (negative, digits) := scanSign s.toList
  if digits.isEmpty || !digits.all Char.isDigit then none
  else some (if negative then -(ofDigits digits : Int) else ofDigits digits)

/-- An unsigned number of at most 64 bits as people write it: digits, perhaps after a plus. -/
def freeWord? (s : String) : Option UInt64 :=
  match freeInt? s with
  | some (.ofNat n) =>
    if n < UInt64.size ∧ ¬ s.startsWith "-" then some (UInt64.ofNat n) else none
  | _ => none

end Numeral

end SheepScene
