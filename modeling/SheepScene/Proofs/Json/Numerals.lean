import SheepScene.Json.Reader
import Mathlib.Data.List.TakeDrop
import Mathlib.Data.List.TakeWhile

/-!
# Numerals in JSON

An integer that is written in decimal is read back as that integer (`int?_ofInt`), and a numeral
consists of characters that occur in numerals (`isNumeralChar_of_ofString?`), so that it ends at
the first character that does not.
-/

set_option autoImplicit false

namespace SheepScene

namespace Numeral

/-- The digits at the head of a text are what the library takes while there are digits. -/
theorem spanDigits_eq (s : List Char) :
    spanDigits s = (s.takeWhile Char.isDigit, s.dropWhile Char.isDigit) := by
  rw [spanDigits, List.span_eq_takeWhile_dropWhile]

/-! ## Integers -/

/-- A number above zero does not begin with a zero. -/
theorem head?_toDigits_ne {n : Nat} (h : 0 < n) : (Nat.toDigits 10 n).head? ≠ some '0' := by
  induction n using Nat.strongRecOn with
  | ind n ih =>
    by_cases small : n < 10
    · rw [Nat.toDigits_of_lt_base small]
      simpa using Nat.ne_of_gt h
    · rw [Nat.toDigits_of_base_le (by decide) (by omega), List.head?_append]
      obtain ⟨first, found⟩ : ∃ c, (Nat.toDigits 10 (n / 10)).head? = some c :=
        Option.isSome_iff_exists.1 (List.isSome_head?.2 Nat.toDigits_ne_nil)
      have := ih (n / 10) (by omega) (by omega)
      rw [found] at this ⊢
      exact this

/-- The digits of a number are the whole part of a numeral. -/
theorem scanWhole_toDigits (n : Nat) :
    scanWhole (Nat.toDigits 10 n) = some (Nat.toDigits 10 n, []) := by
  have digits : ∀ c ∈ Nat.toDigits 10 n, c.isDigit = true :=
    fun c => Nat.isDigit_of_mem_toDigits (by decide) (by decide)
  rcases Nat.eq_zero_or_pos n with rfl | positive
  · rfl
  · have first := head?_toDigits_ne positive
    unfold scanWhole
    split
    · next shape => simp [shape] at first
    · rw [spanDigits_eq, List.takeWhile_eq_self_iff.2 digits, List.dropWhile_eq_nil_iff.2 digits]
      split
      · next shape => exact absurd (congrArg Prod.fst shape) Nat.toDigits_ne_nil
      · rfl

/-- The digits of a number are read as a numeral without a fraction. -/
theorem scan_toDigits (n : Nat) :
    scan (Nat.toDigits 10 n) =
      some (⟨false, Nat.toDigits 10 n, [], none⟩, []) := by
  unfold scan
  split
  next negative s signed =>
  split at signed
  · next rest shape =>
    -- A minus is no digit.
    have : ('-').isDigit = true := by
      apply Nat.isDigit_of_mem_toDigits (b := 10) (n := n) (by decide) (by decide)
      rw [shape]
      exact List.mem_cons_self
    exact absurd this (by decide)
  · cases signed
    simp [scanWhole_toDigits, scanFraction, scanExponent]

/-- Digits after a minus are read as a negative numeral. -/
theorem scan_minus_toDigits (n : Nat) :
    scan ('-' :: Nat.toDigits 10 n) =
      some (⟨true, Nat.toDigits 10 n, [], none⟩, []) := by
  simp [scan, scanWhole_toDigits, scanFraction, scanExponent]

/-- Reading the digits of a number gives the number. -/
theorem ofDigits_toDigits (n : Nat) : ofDigits (Nat.toDigits 10 n) = n := by
  rw [ofDigits, ← Nat.ofDigitChars_eq_foldl, Nat.ofDigitChars_ten_toDigits]

/-- A natural number is read as it was written. -/
theorem toInt?_toString_nat (n : Nat) : (ofString? (toString n)).bind toInt? = some (n : Int) := by
  rw [Nat.toString_eq_ofList_toDigits, ofString?, String.toList_ofList, scan_toDigits]
  simp [toInt?, coefficient, ofDigits_toDigits]

/-- An integer is read as it was written. -/
theorem toInt?_toString (n : Int) : (ofString? (toString n)).bind toInt? = some n := by
  cases n with
  | ofNat n => exact toInt?_toString_nat n
  | negSucc n =>
    have written : (toString (Int.negSucc n)).toList = '-' :: Nat.toDigits 10 (n + 1) := by
      show ("-" ++ Nat.repr (n + 1)).toList = _
      simp [Nat.repr_eq_ofList_toDigits]
    rw [ofString?, written, scan_minus_toDigits]
    simp [toInt?, coefficient, ofDigits_toDigits]
    omega

/-- Different numbers are written differently. -/
theorem toString_nat_inj {n n' : Nat} (h : toString n = toString n') : n = n' := by
  have same : some (n : Int) = some (n' : Int) := by
    rw [← toInt?_toString_nat, h, toInt?_toString_nat]
  exact Int.ofNat.inj (Option.some.inj same)

/-- Integers of the same text are equal. -/
theorem toString_int_inj {n n' : Int} (h : toString n = toString n') : n = n' := by
  have same : some n = some n' := by
    rw [← toInt?_toString, h, toInt?_toString]
  exact Option.some.inj same

end Numeral

namespace Json

/-- An integer that is written as a numeral is read back. -/
theorem int?_ofInt (n : Int) : (ofInt n).int? = some n :=
  Numeral.toInt?_toString n

/-- A natural number that is written as a numeral is read back. -/
theorem int?_ofNat (n : Nat) : (ofNat n).int? = some (n : Int) :=
  Numeral.toInt?_toString_nat n

/-! ## The extent of a numeral -/

/-- A text begins with characters of numerals, after which the rest is left. -/
def Leaves (s rest : List Char) : Prop :=
  ∃ head, s = head ++ rest ∧ ∀ c ∈ head, isNumeralChar c = true

namespace Leaves

/-- Nothing may be left off. -/
theorem refl (s : List Char) : Leaves s s :=
  ⟨[], rfl, by simp⟩

/-- One more character of a numeral may be left off. -/
theorem cons {c : Char} {s rest : List Char} (hc : isNumeralChar c = true) (h : Leaves s rest) :
    Leaves (c :: s) rest := by
  obtain ⟨head, rfl, all⟩ := h
  exact ⟨c :: head, rfl, List.forall_mem_cons.2 ⟨hc, all⟩⟩

/-- What is left of a rest is left of the whole. -/
theorem trans {s middle rest : List Char} (first : Leaves s middle) (second : Leaves middle rest) :
    Leaves s rest := by
  obtain ⟨head, rfl, all⟩ := first
  obtain ⟨more, rfl, others⟩ := second
  refine ⟨head ++ more, (List.append_assoc ..).symm, fun c member => ?_⟩
  exact (List.mem_append.1 member).elim (all c) (others c)

/-- Reading digits leaves a rest behind numeral characters. -/
theorem spanDigits (s : List Char) : Leaves s (Numeral.spanDigits s).2 := by
  rw [Numeral.spanDigits_eq]
  refine ⟨s.takeWhile Char.isDigit, (List.takeWhile_append_dropWhile).symm, fun c member => ?_⟩
  simp [isNumeralChar, List.mem_takeWhile_imp member]

/-- Reading the whole part leaves a rest behind numeral characters. -/
theorem scanWhole {s : List Char} {found : List Char × List Char}
    (h : Numeral.scanWhole s = some found) : Leaves s found.2 := by
  have digits := spanDigits s
  unfold Numeral.scanWhole at h
  split at h
  · cases h
    exact (refl _).cons (by decide)
  · split at h
    · cases h
    · cases h
      exact digits

/-- Reading the fraction leaves a rest behind numeral characters. -/
theorem scanFraction {s : List Char} {found : List Char × List Char}
    (h : Numeral.scanFraction s = some found) : Leaves s found.2 := by
  unfold Numeral.scanFraction at h
  split at h
  · next rest =>
    have digits := spanDigits rest
    split at h
    · cases h
    · cases h
      exact digits.cons (by decide)
  · cases h
    exact refl _

/-- Reading the exponent leaves a rest behind numeral characters. -/
theorem scanExponent {s : List Char} {found : Option Int × List Char}
    (h : Numeral.scanExponent s = some found) : Leaves s found.2 := by
  unfold Numeral.scanExponent at h
  split at h
  · next e rest =>
    split at h
    · next marked =>
      have mark : isNumeralChar e = true := by rcases marked with rfl | rfl <;> decide
      split at h
      next negative signless signed =>
      have sign : Leaves rest signless := by
        split at signed <;> cases signed
        · exact (refl _).cons (by decide)
        · exact (refl _).cons (by decide)
        · exact refl _
      have digits := spanDigits signless
      split at h
      · cases h
      · next found' =>
        cases h
        rw [found'] at digits
        exact (sign.trans digits).cons mark
    · cases h
      exact refl _
  · cases h
    exact refl _

/-- Reading a numeral leaves a rest behind numeral characters. -/
theorem scan {s : List Char} {found : Numeral × List Char} (h : Numeral.scan s = some found) :
    Leaves s found.2 := by
  unfold Numeral.scan at h
  split at h
  next negative signless signed =>
  have sign : Leaves s signless := by
    split at signed <;> cases signed
    · exact (refl _).cons (by decide)
    · exact refl _
  obtain ⟨whole, scannedWhole, h⟩ := Option.bind_eq_some_iff.1 h
  obtain ⟨fraction, scannedFraction, h⟩ := Option.bind_eq_some_iff.1 h
  obtain ⟨power, scannedPower, h⟩ := Option.bind_eq_some_iff.1 h
  cases h
  exact ((sign.trans (scanWhole scannedWhole)).trans (scanFraction scannedFraction)).trans
    (scanExponent scannedPower)

end Leaves

/-- A text that is a numeral has no other characters than those of numerals. -/
theorem isNumeralChar_of_ofString? {literal : String} (h : (Numeral.ofString? literal).isSome) :
    ∀ c ∈ literal.toList, isNumeralChar c = true := by
  unfold Numeral.ofString? at h
  split at h
  · next n scanned =>
    obtain ⟨head, split, all⟩ := Leaves.scan scanned
    rw [split, List.append_nil]
    exact all
  · cases h

/-- What stands behind a value does not go on with a character of numerals. -/
def Ends (rest : List Char) : Prop :=
  ∀ c ∈ rest.head?, isNumeralChar c = false

/-- A numeral is cut off where it ends. -/
theorem scanNumber_append {literal : String} (h : (Numeral.ofString? literal).isSome)
    {rest : List Char} (ends : Ends rest) :
    scanNumber (literal.toList ++ rest) = some (literal.toList, rest) := by
  have all := isNumeralChar_of_ofString? h
  have nothing : rest.takeWhile isNumeralChar = [] ∧ rest.dropWhile isNumeralChar = rest := by
    cases rest with
    | nil => exact ⟨rfl, rfl⟩
    | cons c rest => simp [ends c rfl]
  unfold Numeral.ofString? at h
  split at h
  · next n scanned =>
    rw [scanNumber, List.takeWhile_append_of_pos all, List.dropWhile_append_of_pos all,
      nothing.1, nothing.2, List.append_nil, scanned]
  · cases h

end Json

end SheepScene
