import SheepScene.Number.Layout
import SheepScene.Proofs.Number.FloatBits

/-!
# Floats in plain text

Digits with a point between them stand for one number (`Decimal.spelled`), wherever the exponent has
put the point and however many zeros it took to put it there. The plain text of a float spells the
shortest decimal of its magnitude behind its sign, so that two floats with one text are the same
unless they are no numbers (`FloatLayout.write_plain_inj`).
-/

set_option autoImplicit false

namespace SheepScene

/-! ## Digits and a point -/

namespace Decimal

/-- The number that digits with a point between them stand for. -/
def spelled (text : List Char) : ℚ :=
  (Nat.ofDigitChars 10 (text.filter (· ≠ '.')) 0 : ℚ)
    / 10 ^ ((text.dropWhile (· ≠ '.')).length - 1)

/-- Dropping the points changes nothing in a text without any. -/
theorem filter_ne_point {text : List Char} (h : '.' ∉ text) : text.filter (· ≠ '.') = text :=
  List.filter_eq_self.2 fun c hc => by
    simpa using fun hpoint : c = '.' => h (hpoint ▸ hc)

/-- What is searched for the point passes over a text without any. -/
theorem dropWhile_ne_point {whole : List Char} (h : '.' ∉ whole) (rest : List Char) :
    (whole ++ rest).dropWhile (· ≠ '.') = rest.dropWhile (· ≠ '.') :=
  List.dropWhile_append_of_pos fun c hc => by
    simpa using fun hpoint : c = '.' => h (hpoint ▸ hc)

/-- Digits without a point are a whole number. -/
theorem spelled_whole {whole : List Char} (h : '.' ∉ whole) :
    spelled whole = Nat.ofDigitChars 10 whole 0 := by
  have rest := dropWhile_ne_point h []
  rw [List.append_nil] at rest
  rw [spelled, filter_ne_point h, rest]
  simp

/-- The digits behind the point are as many as the powers of ten that the digits are divided by. -/
theorem spelled_point {whole fraction : List Char} (hwhole : '.' ∉ whole)
    (hfraction : '.' ∉ fraction) : spelled (whole ++ '.' :: fraction)
      = Nat.ofDigitChars 10 (whole ++ fraction) 0 / 10 ^ fraction.length := by
  rw [spelled, dropWhile_ne_point hwhole, List.filter_append, filter_ne_point hwhole,
    List.filter_cons_of_neg (by simp), filter_ne_point hfraction]
  simp

/-- Zeros in front change nothing. -/
theorem ofDigitChars_zeros (n : Nat) (digits : List Char) :
    Nat.ofDigitChars 10 (List.replicate n '0' ++ digits) 0 = Nat.ofDigitChars 10 digits 0 := by
  rw [Nat.ofDigitChars_append, Nat.ofDigitChars_replicate_zero, Nat.mul_zero]

/-- Digits with the point where an exponent puts it stand for that power of ten of them. -/
theorem spelled_pointed {digits : List Char} (h : '.' ∉ digits) (exponent : Int) :
    spelled (FloatLayout.pointed digits exponent false)
      = Nat.ofDigitChars 10 digits 0 * 10 ^ exponent := by
  unfold FloatLayout.pointed
  dsimp only
  by_cases hexponent : 0 ≤ exponent
  · obtain ⟨n, rfl⟩ := Int.eq_ofNat_of_zero_le hexponent
    rw [if_pos hexponent, if_neg (by decide), List.append_nil, Int.toNat_natCast,
      spelled_whole (by simp [h]), Nat.ofDigitChars_append, Nat.ofDigitChars_replicate_zero]
    push_cast
    rw [zpow_natCast, mul_comm]
  obtain ⟨n, rfl⟩ : ∃ n : Nat, exponent = -n := ⟨(-exponent).toNat, by omega⟩
  rw [if_neg hexponent, Int.neg_neg, Int.toNat_natCast, zpow_neg, zpow_natCast, ← div_eq_mul_inv]
  split
  · rename_i inside
    rw [spelled_point (fun hc => h (List.mem_of_mem_take hc))
        (fun hc => h (List.mem_of_mem_drop hc)),
      List.take_append_drop, List.length_drop, Nat.sub_sub_self inside.le]
  · rename_i outside
    have zeros : ['0'] ++ (List.replicate (n - digits.length) '0' ++ digits)
        = List.replicate (n - digits.length + 1) '0' ++ digits := rfl
    change spelled (['0'] ++ '.' :: (List.replicate (n - digits.length) '0' ++ digits)) = _
    rw [spelled_point (by decide) (by simp [h]), zeros, ofDigitChars_zeros, List.length_append,
      List.length_replicate, Nat.sub_add_cancel (Nat.le_of_not_lt outside)]

/-- The text of a decimal consists of digits and a point at most. -/
theorem mem_pointed {digits : List Char} (h : ∀ c ∈ digits, c.isDigit = true) {exponent : Int}
    {c : Char} (hc : c ∈ FloatLayout.pointed digits exponent false) :
    c.isDigit = true ∨ c = '.' := by
  have zero : ∀ n, c ∈ List.replicate n '0' → c.isDigit = true := by
    intro n hzero
    rw [List.eq_of_mem_replicate hzero]
    rfl
  unfold FloatLayout.pointed at hc
  dsimp only at hc
  split at hc
  · rw [if_neg (by decide), List.append_nil, List.mem_append] at hc
    exact .inl (hc.elim (h c) (zero _))
  · split at hc
    · rcases List.mem_append.1 hc with hc | hc
      · exact .inl (h c (List.mem_of_mem_take hc))
      · rcases List.mem_cons.1 hc with rfl | hc
        · exact .inr rfl
        · exact .inl (h c (List.mem_of_mem_drop hc))
    · rcases List.mem_append.1 hc with hc | hc
      · rcases List.mem_cons.1 hc with rfl | hc
        · exact .inl rfl
        · rcases List.mem_cons.1 hc with rfl | hc
          · exact .inr rfl
          · exact .inl (zero _ hc)
      · exact .inl (h c hc)

end Decimal

/-! ## Floats -/

namespace FloatLayout

open Decimal (Proper)

/-- Whether a float has a minus sign. -/
def isNegative : FloatParts → Bool
  | .notANumber => false
  | .infinite negative | .finite negative _ _ => negative

/-- The text of a float without its sign. -/
def magnitude : FloatParts → List Char
  | .notANumber => "NaN".toList
  | .infinite _ => "inf".toList
  | .finite _ significand exponent =>
    if significand = 0 then ['0']
    else plain.unsigned (Decimal.shortest .up significand exponent)

/-- The plain text of a number is its sign, if any, and its magnitude. -/
theorem toList_write_plain {x : Float32} (hn : Binary32.read x ≠ .notANumber) :
    (plain.write x).toList
      = (if isNegative (Binary32.read x) then ['-'] else []) ++ magnitude (Binary32.read x) := by
  unfold write
  cases hread : Binary32.read x with
  | notANumber => exact absurd hread hn
  | infinite negative => cases negative <;> rfl
  | finite negative significand exponent =>
    simp only [magnitude, isNegative]
    by_cases zero : significand = 0
    · rw [if_pos zero, if_pos zero, String.toList_ofList]
      cases negative <;> rfl
    · rw [if_neg zero, if_neg zero, String.toList_ofList]
      rfl

/-- The plain text of a decimal is its digits with the point put in. -/
theorem unsigned_plain (d : Decimal) : plain.unsigned d = pointed d.digits d.exponent false :=
  rfl

/-- The digits of a decimal are digits. -/
theorem isDigit_digits (d : Decimal) : ∀ c ∈ d.digits, c.isDigit = true :=
  fun _ => Nat.isDigit_of_mem_toDigits (by decide) (by decide)

/-- The digits and the point of a decimal stand for it. -/
theorem spelled_unsigned (d : Decimal) : Decimal.spelled (plain.unsigned d) = d.toRat := by
  have pointless : '.' ∉ d.digits := fun h => absurd (isDigit_digits d _ h) (by decide)
  rw [unsigned_plain, Decimal.spelled_pointed pointless, Decimal.digits,
    Nat.ofDigitChars_ten_toDigits, Decimal.toRat]

/-- The text of a finite float without its sign consists of digits and a point at most. -/
theorem mem_magnitude {negative : Bool} {significand : Nat} {exponent : Int} {c : Char}
    (hc : c ∈ magnitude (.finite negative significand exponent)) : c.isDigit = true ∨ c = '.' := by
  simp only [magnitude] at hc
  split at hc
  · rw [List.mem_singleton.1 hc]
    exact .inl rfl
  · exact Decimal.mem_pointed (isDigit_digits _) hc

/-- No minus sign stands within a magnitude. -/
theorem minus_not_mem_magnitude (p : FloatParts) : '-' ∉ magnitude p := by
  intro h
  cases p with
  | notANumber => exact absurd h (by decide)
  | infinite negative => exact (by decide : '-' ∉ "inf".toList) h
  | finite => exact absurd (mem_magnitude h) (by decide)

/-- The plain text of a float consists of letters and digits, but for a sign and a point. -/
theorem mem_write_plain {x : Float32} {c : Char} (h : c ∈ (plain.write x).toList) :
    c.isAlphanum = true ∨ c = '-' ∨ c = '.' := by
  have letters : ∀ c ∈ "NaN".toList ++ "inf".toList, c.isAlphanum = true :=
    List.all_eq_true.1 (by decide)
  by_cases hn : Binary32.read x = .notANumber
  · rw [write, hn] at h
    exact .inl (letters c (List.mem_append_left _ h))
  · rw [toList_write_plain hn, List.mem_append] at h
    rcases h with h | h
    · split at h
      · exact .inr (.inl (List.mem_singleton.1 h))
      · cases h
    · cases hread : Binary32.read x with
      | notANumber => exact absurd hread hn
      | infinite =>
        rw [hread] at h
        exact .inl (letters c (List.mem_append_right _ h))
      | finite =>
        rw [hread] at h
        rcases mem_magnitude h with digit | point
        · exact .inl (by simp [Char.isAlphanum, digit])
        · exact .inr (.inr point)

/-- The text of a finite float stands for a number in its interval, or for zero. -/
theorem spelled_magnitude {negative : Bool} {significand : Nat} {exponent : Int} :
    Decimal.spelled (magnitude (.finite negative significand exponent))
      = if significand = 0 then 0 else (Decimal.shortest .up significand exponent).toRat := by
  simp only [magnitude]
  split
  · rw [Decimal.spelled_whole (by decide)]
    rfl
  · exact spelled_unsigned _

/-- Finite floats whose shortest decimals are equal are equal, zero being its own decimal. -/
theorem eq_of_spelled {m m' : Nat} {e e' : Int} (h : m = 0 ∧ e = -149 ∨ Proper m e)
    (h' : m' = 0 ∧ e' = -149 ∨ Proper m' e')
    (value : (if m = 0 then 0 else (Decimal.shortest .up m e).toRat)
      = if m' = 0 then 0 else (Decimal.shortest .up m' e').toRat) : m = m' ∧ e = e' := by
  have inside := fun {m e} (proper : Proper m e) => Decimal.contains_shortest .up proper
  have positive := fun {m e} (proper : Proper m e) =>
    Decimal.Interval.pos_of_contains proper (inside proper)
  rcases h with ⟨rfl, rfl⟩ | proper <;> rcases h' with ⟨rfl, rfl⟩ | proper'
  · exact ⟨rfl, rfl⟩
  · rw [if_pos rfl, if_neg proper'.positive.ne'] at value
    exact absurd value (positive proper').ne
  · rw [if_pos rfl, if_neg proper.positive.ne'] at value
    exact absurd value (positive proper).ne'
  · rw [if_neg proper.positive.ne', if_neg proper'.positive.ne'] at value
    exact Decimal.Interval.eq_of_contains proper proper' (inside proper) (value ▸ inside proper')

/-- The sign of a float and its text without the sign can be told from its text. -/
theorem sign_and_magnitude {p q : FloatParts}
    (h : (if isNegative p then ['-'] else []) ++ magnitude p
      = (if isNegative q then ['-'] else []) ++ magnitude q) :
    isNegative p = isNegative q ∧ magnitude p = magnitude q := by
  cases hp : isNegative p <;> cases hq : isNegative q <;> rw [hp, hq] at h
  · exact ⟨rfl, h⟩
  · have h : magnitude p = '-' :: magnitude q := h
    exact absurd (h ▸ List.mem_cons_self) (minus_not_mem_magnitude p)
  · have h : '-' :: magnitude p = magnitude q := h
    exact absurd (h ▸ List.mem_cons_self) (minus_not_mem_magnitude q)
  · exact ⟨rfl, (List.cons.inj h).2⟩

/-- Floats that are numbers have their own texts each. -/
theorem write_plain_inj {x y : Float32} (hx : Binary32.read x ≠ .notANumber)
    (hy : Binary32.read y ≠ .notANumber) (h : plain.write x = plain.write y) : x = y := by
  have texts := congrArg String.toList h
  rw [toList_write_plain hx, toList_write_plain hy] at texts
  obtain ⟨sign, same⟩ := sign_and_magnitude texts
  refine Binary32.read_inj ?_ hx
  have named : ∀ negative, 'i' ∈ magnitude (.infinite negative) := fun _ =>
    (by decide : 'i' ∈ "inf".toList)
  have numeral : ∀ negative m e, 'i' ∉ magnitude (.finite negative m e) := fun _ _ _ hi =>
    absurd (mem_magnitude hi) (by decide)
  cases hpx : Binary32.read x with
  | notANumber => exact absurd hpx hx
  | infinite negative =>
    cases hpy : Binary32.read y with
    | notANumber => exact absurd hpy hy
    | infinite negative' =>
      rw [hpx, hpy] at sign
      exact congrArg FloatParts.infinite sign
    | finite negative' m' e' =>
      rw [hpx, hpy] at same
      exact (numeral _ _ _ (same ▸ named negative)).elim
  | finite negative m e =>
    cases hpy : Binary32.read y with
    | notANumber => exact absurd hpy hy
    | infinite negative' =>
      rw [hpx, hpy] at same
      exact (numeral _ _ _ (same ▸ named negative')).elim
    | finite negative' m' e' =>
      rw [hpx, hpy] at same sign
      obtain rfl : negative = negative' := sign
      have value := congrArg Decimal.spelled same
      rw [spelled_magnitude, spelled_magnitude] at value
      obtain ⟨rfl, rfl⟩ := eq_of_spelled (FloatParts.proper_of_ofBits hpx)
        (FloatParts.proper_of_ofBits hpy) value
      rfl

end FloatLayout

end SheepScene
