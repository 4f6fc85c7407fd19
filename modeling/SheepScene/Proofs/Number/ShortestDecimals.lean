import Mathlib.Algebra.Order.Field.Rat
import Mathlib.Algebra.Order.Field.Power
import Mathlib.Data.Nat.Cast.Order.Field
import Mathlib.Tactic.Linarith
import Mathlib.Tactic.Ring
import SheepScene.Number.Shortest

/-!
# Shortest decimals tell floats apart

The shortest decimal of a float is a number of the float's rounding interval
(`Decimal.contains_shortest`). With nine digits there always is one, because the step of that grid
is no greater than what the interval has below the float (`Decimal.isSome_nine`). The intervals of
different floats have no number in common: of two neighbours the lower one ends where the upper one
begins, and only that of an even significand has its ends (`Decimal.Interval.not_contains_of_lt`).
So a decimal in the interval of a float is in that of no other (`Decimal.Interval.eq_of_contains`).
-/

set_option autoImplicit false

namespace SheepScene

namespace Decimal

/-- The number that a decimal stands for. -/
def toRat (d : Decimal) : ℚ :=
  d.coefficient * 10 ^ d.exponent

/-- Scaling both sides of a fraction is scaling it by a power of the base. -/
theorem scaled_div_scaled (n : Nat) {base : Nat} (h : 0 < base) (exponent : Int) :
    (scaled n base exponent : ℚ) / scaled 1 base (-exponent) = n * (base : ℚ) ^ exponent := by
  have positive : (base : ℚ) ≠ 0 := by exact_mod_cast h.ne'
  obtain ⟨k, rfl | rfl⟩ := exponent.eq_nat_or_neg
  · simp [scaled]
  · simp [scaled, div_eq_mul_inv]

/-- A positive number stays positive when it is scaled. -/
theorem scaled_pos {n base : Nat} (hn : 0 < n) (hb : 0 < base) (exponent : Int) :
    0 < scaled n base exponent :=
  Nat.mul_pos hn (Nat.pow_pos hb)

/-- Zeros at the end of the coefficient are worth as much in the exponent. -/
theorem toRat_trim (places : Nat) (d : Decimal) : (trim places d).toRat = d.toRat := by
  induction places generalizing d with
  | zero => rfl
  | succ places ih =>
    unfold trim
    split
    · rename_i h
      have whole : d.coefficient = 10 * (d.coefficient / 10) := by omega
      have cast : (d.coefficient : ℚ) = 10 * (d.coefficient / 10 : Nat) := by exact_mod_cast whole
      rw [ih, toRat, toRat, cast, zpow_add_one₀ (by norm_num)]
      ring
    · rfl

/-- The leading digit stands for no more than the number. -/
theorem zpow_leadingExponent_le {num den : Nat} (hnum : 0 < num) (hden : 0 < den) :
    (10 : ℚ) ^ leadingExponent num den ≤ num / den := by
  have numerator : (0 : ℚ) < num := by exact_mod_cast hnum
  have denominator : (0 : ℚ) < den := by exact_mod_cast hden
  unfold leadingExponent
  split
  · rename_i hle
    have positive : 0 < num / den := Nat.div_pos hle hden
    obtain ⟨k, hk⟩ : ∃ k, (Nat.toDigits 10 (num / den)).length = k + 1 :=
      ⟨_, (Nat.succ_pred_eq_of_pos (Nat.length_toDigits_pos)).symm⟩
    have bound : 10 ^ k ≤ num / den := by
      rcases Nat.eq_zero_or_pos k with rfl | hpos
      · exact positive
      · refine Nat.le_of_not_lt fun hlt => ?_
        have := (Nat.length_toDigits_le_iff (by decide) hpos).2 hlt
        omega
    rw [hk]
    calc (10 : ℚ) ^ (((k + 1 : Nat) : Int) - 1) = ((10 ^ k : Nat) : ℚ) := by
          push_cast
          rw [add_sub_cancel_right, zpow_natCast]
      _ ≤ (num / den : Nat) := by exact_mod_cast bound
      _ ≤ num / den := Nat.cast_div_le
  · generalize hk : (Nat.toDigits 10 ((den - 1) / num)).length = k
    have bound : (den - 1) / num < 10 ^ k := by
      refine (Nat.length_toDigits_le_iff (by decide) ?_).1 hk.le
      rw [← hk]
      exact Nat.length_toDigits_pos
    have whole : den ≤ num * 10 ^ k := by
      have := (Nat.div_lt_iff_lt_mul hnum).1 bound
      rw [Nat.mul_comm]
      omega
    rw [zpow_neg, zpow_natCast, ← one_div, div_le_div_iff₀ (by positivity) denominator, one_mul]
    exact_mod_cast whole

/-! ## Intervals -/

namespace Interval

/-- The numbers in an interval. -/
def Contains (i : Interval) (q : ℚ) : Prop :=
  if i.closed then i.low ≤ q * i.den ∧ q * i.den ≤ i.high
  else i.low < q * i.den ∧ q * i.den < i.high

/-- An interval holds a fraction exactly if it contains the quotient. -/
theorem holds_iff (i : Interval) (n num : Nat) {den : Nat} (h : 0 < den) :
    i.holds n num den = true ↔ i.Contains (n * (num / den)) := by
  have hden : (0 : ℚ) < den := by exact_mod_cast h
  have scale : (n * (num / den) : ℚ) * i.den = (n * num * i.den : Nat) / den := by
    push_cast
    ring
  unfold holds Contains
  rw [scale]
  cases i.closed
  · simp only [Bool.false_eq_true, if_false, Bool.and_eq_true, decide_eq_true_eq, lt_div_iff₀ hden,
      div_lt_iff₀ hden]
    exact_mod_cast Iff.rfl
  · simp only [if_true, Bool.and_eq_true, decide_eq_true_eq, le_div_iff₀ hden, div_le_iff₀ hden]
    exact_mod_cast Iff.rfl

/-- A multiple of a power of ten is in the interval if the check says so. -/
theorem holds_grid_iff (i : Interval) (n : Nat) (unit : Int) :
    i.holds n (scaled 1 10 unit) (scaled 1 10 (-unit)) = true ↔ i.Contains (n * 10 ^ unit) := by
  rw [i.holds_iff n _ (scaled_pos Nat.one_pos (by decide) _),
    scaled_div_scaled 1 (show 0 < 10 by decide) unit, Nat.cast_one, one_mul]
  norm_cast

/-- What is found on a grid is in the interval. -/
theorem contains_of_nearestOnGrid {i : Interval} {tie : Tie} {unit : Int} {d : Decimal}
    (h : i.nearestOnGrid tie unit = some d) : i.Contains d.toRat := by
  unfold nearestOnGrid at h
  dsimp only at h
  split at h
  · rename_i hupper
    cases h
    exact (i.holds_grid_iff _ _).1 (Bool.and_eq_true_iff.1 hupper).1
  · split at h
    · rename_i hlower
      cases h
      exact (i.holds_grid_iff _ _).1 hlower
    · cases h

/-- A grid that is finer than the lower half of the interval has a point in it. -/
theorem isSome_nearestOnGrid {i : Interval} (tie : Tie) {unit : Int} (hden : 0 < i.den)
    (fine : (i.low : ℚ) + 10 ^ unit * i.den ≤ i.value) (hhigh : i.value < i.high) :
    (i.nearestOnGrid tie unit).isSome := by
  have lower : i.holds (i.value * scaled 1 10 (-unit) / (scaled 1 10 unit * i.den))
      (scaled 1 10 unit) (scaled 1 10 (-unit)) = true := by
    rw [holds_grid_iff]
    have ratio := scaled_div_scaled 1 (show 0 < 10 by decide) unit
    rw [Nat.cast_one, one_mul] at ratio
    have hnum : 0 < scaled 1 10 unit := scaled_pos Nat.one_pos (by decide) _
    have hscale : 0 < scaled 1 10 (-unit) := scaled_pos Nat.one_pos (by decide) _
    generalize scaled 1 10 unit = num at ratio hnum ⊢
    generalize scaled 1 10 (-unit) = den at ratio hscale ⊢
    have below := Nat.div_mul_le_self (i.value * den) (num * i.den)
    have above := Nat.lt_div_mul_add (a := i.value * den) (Nat.mul_pos hnum hden)
    generalize i.value * den / (num * i.den) = n at below above ⊢
    have positive : (0 : ℚ) < den := by exact_mod_cast hscale
    have hnumber : (num : ℚ) = 10 ^ unit * den := (div_eq_iff positive.ne').1 ratio
    have atMost : (n * 10 ^ unit : ℚ) * i.den ≤ i.value := by
      refine le_of_mul_le_mul_right ?_ positive
      have : (n * (num * i.den) : ℚ) ≤ i.value * den := by exact_mod_cast below
      rw [hnumber] at this
      linarith
    have within : (i.value : ℚ) < (n * 10 ^ unit) * i.den + 10 ^ unit * i.den := by
      refine lt_of_mul_lt_mul_right ?_ positive.le
      have : (i.value * den : ℚ) < n * (num * i.den) + num * i.den := by exact_mod_cast above
      rw [hnumber] at this
      linarith
    have ends : (i.low : ℚ) < (n * 10 ^ unit) * i.den ∧ (n * 10 ^ unit : ℚ) * i.den < i.high :=
      ⟨by linarith, atMost.trans_lt (by exact_mod_cast hhigh)⟩
    unfold Contains
    split
    · exact ⟨ends.1.le, ends.2.le⟩
    · exact ends
  unfold nearestOnGrid
  dsimp only
  rw [lower]
  split <;> rfl

end Interval

/-! ## Floats -/

/-- The significand and the exponent of a positive float, as far as it matters for its neighbours:
the significand has all its digits unless the exponent is the least one. -/
structure Proper (significand : Nat) (exponent : Int) : Prop where
  positive : 0 < significand
  lt : significand < 2 ^ 24
  normal : -149 < exponent → 2 ^ 23 ≤ significand
  least : -149 ≤ exponent

namespace Interval

variable {significand : Nat} {exponent : Int}

/-- By how many quarters of the last digit a float stands above the lower end of its interval. -/
def quartersBelow (significand : Nat) (exponent : Int) : Nat :=
  if significand = 2 ^ 23 ∧ exponent ≠ -149 then 1 else 2

/-- A scaled number, read as a fraction, is the number times its power of two. -/
theorem ratio_ofFloat (n : Nat) (exponent : Int) :
    (scaled n 2 (exponent - 2) : ℚ) / scaled 1 2 (2 - exponent) = n * 2 ^ (exponent - 2) := by
  have := scaled_div_scaled n (show 0 < 2 by decide) (exponent - 2)
  rw [Int.neg_sub] at this
  rw [this]
  norm_cast

/-- The gap below a float is one or two quarters of its last place. -/
theorem quartersBelow_pos (significand : Nat) (exponent : Int) :
    1 ≤ quartersBelow significand exponent ∧ quartersBelow significand exponent ≤ 2 := by
  unfold quartersBelow
  split <;> omega

/-- The gap below a float never reaches below zero. -/
theorem quartersBelow_le (positive : 0 < significand) :
    quartersBelow significand exponent ≤ 4 * significand := by
  have := quartersBelow_pos significand exponent
  omega

/-- The lower end of a float's interval, read as a fraction. -/
theorem ratio_low (positive : 0 < significand) (exponent : Int) :
    (scaled (4 * significand - quartersBelow significand exponent) 2 (exponent - 2) : ℚ)
      / scaled 1 2 (2 - exponent)
      = (4 * significand - quartersBelow significand exponent) * 2 ^ (exponent - 2) := by
  have ratio := ratio_ofFloat (4 * significand - quartersBelow significand exponent) exponent
  push_cast [quartersBelow_le positive] at ratio
  exact ratio

/-- The ends of the interval of a float in quarters of the last digit. -/
theorem contains_ofFloat_iff (proper : Proper significand exponent) (q : ℚ) :
    (ofFloat significand exponent).Contains q ↔
      if significand % 2 = 0 then
        (4 * significand - quartersBelow significand exponent) * 2 ^ (exponent - 2) ≤ q ∧
          q ≤ (4 * significand + 2) * 2 ^ (exponent - 2)
      else
        (4 * significand - quartersBelow significand exponent) * 2 ^ (exponent - 2) < q ∧
          q < (4 * significand + 2) * 2 ^ (exponent - 2) := by
  have hden : (0 : ℚ) < (scaled 1 2 (2 - exponent) : Nat) := by
    exact_mod_cast scaled_pos Nat.one_pos (by decide) _
  have high := ratio_ofFloat (4 * significand + 2) exponent
  push_cast at high
  rw [← ratio_low proper.positive, ← high]
  simp only [div_le_iff₀ hden, le_div_iff₀ hden, div_lt_iff₀ hden, lt_div_iff₀ hden]
  unfold Contains ofFloat
  simp only [decide_eq_true_eq]
  rfl

end Interval

/-- A grid of nine digits is fine enough for every float. -/
theorem isSome_nine (tie : Tie) {significand : Nat} {exponent : Int}
    (proper : Proper significand exponent) :
    let i := Interval.ofFloat significand exponent
    (i.nearestOnGrid tie (leadingExponent i.value i.den - 8)).isSome := by
  intro i
  have hvalue : 0 < i.value :=
    scaled_pos (Nat.mul_pos (by decide) proper.positive) (by decide) _
  have hden : 0 < i.den := scaled_pos Nat.one_pos (by decide) _
  have denominator : (0 : ℚ) < i.den := by exact_mod_cast hden
  have lead := zpow_leadingExponent_le hvalue hden
  generalize leadingExponent i.value i.den = k at lead ⊢
  have value : (i.value : ℚ) / i.den = 4 * significand * 2 ^ (exponent - 2) := by
    have := Interval.ratio_ofFloat (4 * significand) exponent
    push_cast at this
    exact this
  have low : (i.low : ℚ) / i.den
      = (4 * significand - Interval.quartersBelow significand exponent) * 2 ^ (exponent - 2) :=
    Interval.ratio_low proper.positive exponent
  have quarter : (0 : ℚ) < 2 ^ (exponent - 2) := zpow_pos (by norm_num) _
  generalize (2 : ℚ) ^ (exponent - 2) = u at value low quarter
  refine Interval.isSome_nearestOnGrid tie hden ?_ ?_
  · -- The unit of the grid is less than a quarter of the last digit of the float.
    have unit : (10 : ℚ) ^ (k - 8) ≤ u := by
      have small : (4 * significand : ℚ) ≤ 10 ^ 8 := by
        have := proper.lt
        exact_mod_cast (by omega : 4 * significand ≤ 10 ^ 8)
      rw [zpow_sub₀ (by norm_num), div_le_iff₀ (by norm_num)]
      calc (10 : ℚ) ^ k ≤ 4 * significand * u := lead.trans value.le
        _ ≤ u * 10 ^ (8 : Int) := by
          rw [mul_comm]
          exact mul_le_mul_of_nonneg_left small quarter.le
    have below : (1 : ℚ) ≤ Interval.quartersBelow significand exponent := by
      exact_mod_cast (Interval.quartersBelow_pos significand exponent).1
    rw [div_eq_iff denominator.ne'] at value low
    rw [value, low, ← add_mul]
    refine mul_le_mul_of_nonneg_right ?_ denominator.le
    have atLeast := le_mul_of_one_le_left quarter.le below
    linarith
  · exact Nat.mul_lt_mul_of_pos_right (by omega) (Nat.pow_pos (by decide))

/-- The shortest decimal of a float is in its interval. -/
theorem contains_shortest (tie : Tie) {significand : Nat} {exponent : Int}
    (proper : Proper significand exponent) :
    (Interval.ofFloat significand exponent).Contains (shortest tie significand exponent).toRat := by
  unfold shortest
  dsimp only
  rw [toRat_trim]
  have nine := isSome_nine tie proper
  dsimp only at nine
  generalize Interval.ofFloat significand exponent = i at nine ⊢
  generalize leadingExponent i.value i.den = k at nine ⊢
  have found : ((List.range 9).findSome? fun (n : Nat) => i.nearestOnGrid tie (k - n)).isSome :=
    List.findSome?_isSome_iff.2 ⟨8, by decide, nine⟩
  obtain ⟨d, hd⟩ := Option.isSome_iff_exists.1 found
  obtain ⟨n, -, hn⟩ := List.exists_of_findSome?_eq_some hd
  rw [hd, Option.getD_some]
  exact Interval.contains_of_nearestOnGrid hn

namespace Interval

/-- The interval of a float ends before those of all greater floats, or where the next one begins;
then one of the two significands is odd. -/
theorem not_contains_of_lt {m m' : Nat} {e e' : Int} (proper : Proper m e)
    (proper' : Proper m' e') (hlt : e < e' ∨ e = e' ∧ m < m') {q : ℚ}
    (h : (ofFloat m e).Contains q) : ¬ (ofFloat m' e').Contains q := by
  intro h'
  rw [contains_ofFloat_iff proper] at h
  rw [contains_ofFloat_iff proper'] at h'
  have quarters := quartersBelow_pos m' e'
  have quarter : (0 : ℚ) < 2 ^ (e - 2) := zpow_pos (by norm_num) _
  rcases hlt with hlt | ⟨rfl, hlt⟩
  · -- The greater float starts a binade at least, and the other one ends one at most.
    have normal : 2 ^ 23 ≤ m' := proper'.normal (by have := proper.least; omega)
    have least : e' ≠ -149 := by have := proper.least; omega
    have wider : (2 : ℚ) * 2 ^ (e - 2) ≤ 2 ^ (e' - 2) := by
      rw [← zpow_one_add₀ (by norm_num)]
      exact zpow_le_zpow_right₀ (by norm_num) (by omega)
    have first : (2 ^ 25 - 1 : ℚ) ≤ 4 * m' - quartersBelow m' e' := by
      have : 2 ^ 25 + quartersBelow m' e' ≤ 4 * m' + 1 := by
        unfold quartersBelow
        split <;> omega
      have : (2 ^ 25 + quartersBelow m' e' : ℚ) ≤ 4 * m' + 1 := by exact_mod_cast this
      linarith
    have begins : (2 ^ 26 - 2 : ℚ) * 2 ^ (e - 2) ≤ q := by
      have low : (4 * m' - quartersBelow m' e' : ℚ) * 2 ^ (e' - 2) ≤ q := by
        split at h'
        · exact h'.1
        · exact h'.1.le
      nlinarith
    have last : (m : ℚ) + 1 ≤ 2 ^ 24 := by exact_mod_cast proper.lt
    split at h
    · have : (m : ℚ) + 2 ≤ 2 ^ 24 := by
        have := proper.lt
        exact_mod_cast (by omega : m + 2 ≤ 2 ^ 24)
      nlinarith
    · nlinarith
  · generalize (2 : ℚ) ^ (e - 2) = u at h h' quarter
    have next : (m : ℚ) + 1 ≤ m' := by exact_mod_cast hlt
    have least : (quartersBelow m' e : ℚ) ≤ 2 := by exact_mod_cast quarters.2
    have gap : (4 * m + 2) * u ≤ (4 * m' - quartersBelow m' e) * u :=
      mul_le_mul_of_nonneg_right (by linarith) quarter.le
    split at h <;> split at h'
    · have : (m : ℚ) + 2 ≤ m' := by exact_mod_cast (by omega : m + 2 ≤ m')
      nlinarith
    all_goals linarith

/-- There are positive numbers only in the interval of a float. -/
theorem pos_of_contains {m : Nat} {e : Int} (proper : Proper m e) {q : ℚ}
    (h : (ofFloat m e).Contains q) : 0 < q := by
  rw [contains_ofFloat_iff proper] at h
  have quarter : (0 : ℚ) < 2 ^ (e - 2) := zpow_pos (by norm_num) _
  have some : (1 : ℚ) ≤ m := by exact_mod_cast proper.positive
  have few : (quartersBelow m e : ℚ) ≤ 2 := by exact_mod_cast (quartersBelow_pos m e).2
  have low : (0 : ℚ) < (4 * m - quartersBelow m e) * 2 ^ (e - 2) :=
    mul_pos (by linarith) quarter
  split at h <;> linarith

/-- The intervals of two floats have no number in common. -/
theorem eq_of_contains {m m' : Nat} {e e' : Int} (proper : Proper m e)
    (proper' : Proper m' e') {q : ℚ} (h : (ofFloat m e).Contains q)
    (h' : (ofFloat m' e').Contains q) : m = m' ∧ e = e' := by
  have apart := not_contains_of_lt proper proper' (q := q)
  have apart' := not_contains_of_lt proper' proper (q := q)
  rcases Int.lt_trichotomy e e' with hlt | rfl | hgt
  · exact absurd h' (apart (.inl hlt) h)
  · rcases Nat.lt_trichotomy m m' with hlt | rfl | hgt
    · exact absurd h' (apart (.inr ⟨rfl, hlt⟩) h)
    · exact ⟨rfl, rfl⟩
    · exact absurd h (apart' (.inr ⟨rfl, hgt⟩) h')
  · exact absurd h (apart' (.inl hgt) h')

end Interval

end Decimal

end SheepScene
