/-!
# Random numbers

A sequence of 64-bit words that look random: a counter goes on by a fixed odd step, and each of its
values is mixed by shifts and multiplications that can be undone, so that no word comes twice
within a period.
-/

set_option autoImplicit false

namespace SheepScene

/-- A place in the sequence. -/
structure RandomSource where
  counter : UInt64
  deriving DecidableEq, Repr

namespace RandomSource

/-- The beginning of the sequence. -/
def start : RandomSource :=
  ⟨0⟩

/-- Spreads the bits of a word. -/
def mix (x : UInt64) : UInt64 :=
  let x := (x ^^^ (x >>> 30)) * 0xbf58476d1ce4e5b9
  let x := (x ^^^ (x >>> 27)) * 0x94d049bb133111eb
  x ^^^ (x >>> 31)

/-- The next word. -/
def next (r : RandomSource) : UInt64 × RandomSource :=
  let counter := r.counter + 0x9e3779b97f4a7c15
  (mix counter, ⟨counter⟩)

/-- The next number below a bound; zero below the bound zero. -/
def below (r : RandomSource) (bound : Nat) : Nat × RandomSource :=
  if bound = 0 then (0, r)
  else
    let (word, r) := r.next
    (word.toNat % bound, r)

/-- What is drawn is below the bound. -/
theorem below_lt (r : RandomSource) {bound : Nat} (h : 0 < bound) : (r.below bound).1 < bound := by
  have : bound ≠ 0 := by omega
  simp only [below, this, if_false]
  exact Nat.mod_lt _ h

end RandomSource

end SheepScene
