import SheepScene.Number.Binary32

/-!
# The shortest decimal of a binary32 number

Every real number in a float's rounding interval reads back as that float. `shortest` finds the
decimal with the fewest digits in the interval, and of two with equally few digits the nearer one;
which of two equally near ones is taken is up to the format. It looks at the two neighbours of the
value on the grids of one, two, three, … significant digits, in exact integer arithmetic; nine
digits always suffice.
-/

set_option autoImplicit false

namespace SheepScene

/-- The decimal `coefficient · 10 ^ exponent`. -/
structure Decimal where
  coefficient : Nat
  exponent : Int
  deriving DecidableEq, Repr

/-- Which of two equally near decimals is taken. -/
inductive Tie where
  /-- The larger. -/
  | up
  /-- The one whose last digit is even. -/
  | toEven
  deriving DecidableEq, Repr

/-- Whether a value in the middle between `below` and the next number is taken to the latter. -/
def Tie.goesUp (tie : Tie) (below : Nat) : Bool :=
  match tie with
  | .up => true
  | .toEven => below % 2 == 1

namespace Decimal

/-- The digits of the coefficient, most significant first. -/
def digits (d : Decimal) : List Char :=
  Nat.toDigits 10 d.coefficient

/-- The exponent of the leading digit. -/
def leading (d : Decimal) : Int :=
  d.digits.length - 1 + d.exponent

/-- A fraction whose numerator and denominator are scaled by powers of two and ten, so that grid
points and interval ends can be compared as natural numbers. -/
def scaled (n : Nat) (base : Nat) (exponent : Int) : Nat :=
  n * Nat.pow base exponent.toNat

/-- The exponent of the leading decimal digit of `num / den`. -/
def leadingExponent (num den : Nat) : Int :=
  if den ≤ num then (Nat.toDigits 10 (num / den)).length - 1
  else -((Nat.toDigits 10 ((den - 1) / num)).length : Int)

/-- A positive value between the ends of its rounding interval, all over one denominator. -/
structure Interval where
  low : Nat
  value : Nat
  high : Nat
  den : Nat
  /-- Whether the ends themselves belong to the interval. -/
  closed : Bool

/-- The interval of reals that round to the finite float `significand · 2 ^ exponent`. Below a
significand that starts a binade the floats are twice as dense. -/
def Interval.ofFloat (significand : Nat) (exponent : Int) : Interval :=
  let grow := fun n => scaled n 2 (exponent - 2)
  let below := if significand = Nat.pow 2 23 ∧ exponent ≠ -149 then 1 else 2
  { low := grow (4 * significand - below)
    value := grow (4 * significand)
    high := grow (4 * significand + 2)
    den := scaled 1 2 (2 - exponent)
    closed := significand % 2 = 0 }

/-- Whether `n · num / den` lies in the interval. -/
def Interval.holds (i : Interval) (n num den : Nat) : Bool :=
  let point := n * num * i.den
  if i.closed then i.low * den ≤ point && point ≤ i.high * den
  else i.low * den < point && point < i.high * den

/-- The nearest multiple of `10 ^ unit` in the interval, if one of the value's two neighbours on
that grid lies in it. -/
def Interval.nearestOnGrid (i : Interval) (tie : Tie) (unit : Int) : Option Decimal :=
  let num := scaled 1 10 unit
  let den := scaled 1 10 (-unit)
  let below := i.value * den / (num * i.den)
  let lower := i.holds below num den
  let upper := i.holds (below + 1) num den
  let middle := (2 * below + 1) * num * i.den
  let doubled := 2 * i.value * den
  let nearer := middle < doubled || middle == doubled && tie.goesUp below
  if upper && (!lower || nearer) then some ⟨below + 1, unit⟩
  else if lower then some ⟨below, unit⟩
  else none

/-- Moves the zeros at the end of a coefficient of at most `places` digits into the exponent. -/
def trim : Nat → Decimal → Decimal
  | 0, d => d
  | places + 1, d =>
    if d.coefficient ≠ 0 ∧ d.coefficient % 10 = 0 then
      trim places ⟨d.coefficient / 10, d.exponent + 1⟩
    else d

/-- The shortest decimal that reads back as the positive finite float
`significand · 2 ^ exponent`. -/
def shortest (tie : Tie) (significand : Nat) (exponent : Int) : Decimal :=
  let i := Interval.ofFloat significand exponent
  let lead := leadingExponent i.value i.den
  let found := (List.range 9).findSome? fun (n : Nat) => i.nearestOnGrid tie (lead - n)
  let nine := scaled i.value 10 (8 - lead) / scaled i.den 10 (lead - 8)
  trim 10 (found.getD ⟨nine, lead - 8⟩)

end Decimal

end SheepScene
