import Mathlib.Algebra.Ring.Nat
import Mathlib.Algebra.Ring.Int.Defs
import SheepScene.Scene.Frame
import SheepScene.Settings.File

/-!
# Numbers in settings files

Three of the settings are unsigned numbers of 32 bits. A file may give up to 64 bits for each, and
what is beyond 32 is lost without a word when the file is loaded, after a budget has been raised to
one. So a budget may come to be nothing after all, although the scheduler that is made from the
settings raises it once more; and a viewport takes the upper half of its words for negative numbers
(`loaded_numbers_are_reduced`). A number is kept just when it fits (`Settings.Quantity.of_updated`).
-/

set_option autoImplicit false

namespace SheepScene

namespace Settings

/-! ## Numbers that are given -/

/-- The settings that are unsigned numbers. -/
inductive Quantity where
  | viewportWidth
  | viewportHeight
  | instructionBudget

namespace Quantity

/-- The number in some settings. -/
def of (s : Settings) : Quantity → UInt32
  | viewportWidth => s.viewportWidth
  | viewportHeight => s.viewportHeight
  | instructionBudget => s.instructionBudget

/-- What a settings file gives for the number, if it is an unsigned number of 64 bits. -/
def given? (ini : Ini) : Quantity → Option UInt64
  | viewportWidth => word? ini "viewport" "width"
  | viewportHeight => word? ini "viewport" "height"
  | instructionBudget => word? ini "sheep" "instruction_budget"

/-- What a number that is given stands for: a budget of nothing stands for one. -/
def meant (n : UInt64) : Quantity → Nat
  | instructionBudget => max n.toNat 1
  | _ => n.toNat

/-- What is not given stays. -/
theorem of_updated_none {s : Settings} {ini : Ini} {k : Quantity} (missing : k.given? ini = none) :
    k.of (s.updated ini) = k.of s := by
  cases k <;> exact congrArg (Option.getD · _) (congrArg (Option.map _) missing)

/-- Of what is given the last 32 bits are taken. -/
theorem of_updated {s : Settings} {ini : Ini} {k : Quantity} {n : UInt64}
    (given : k.given? ini = some n) : (k.of (s.updated ini)).toNat = k.meant n % 2 ^ 32 := by
  have taken : ∀ (f : UInt64 → UInt32) (old : UInt32) {written : Option UInt64},
      written = some n → ((written.map f).getD old).toNat = (f n).toNat := by
    rintro f old _ rfl
    rfl
  have raised : (max n 1).toNat = max n.toNat 1 := by
    change (if n ≤ 1 then 1 else n).toNat = if n.toNat ≤ 1 then 1 else n.toNat
    split <;> rename_i small <;> rw [UInt64.le_iff_toNat_le, UInt64.toNat_one] at small
    · rw [if_pos small, UInt64.toNat_one]
    · rw [if_neg small]
  cases k with
  | viewportWidth | viewportHeight => exact (taken _ _ given).trans (UInt64.toNat_toUInt32 n)
  | instructionBudget =>
    refine (taken _ _ given).trans ((UInt64.toNat_toUInt32 _).trans ?_)
    rw [raised]
    rfl

end Quantity

end Settings

/-! ## What becomes of them in a scene -/

/-- The upper half of the words are negative numbers. -/
theorem toInt_toInt32 (w : UInt32) :
    w.toInt32.toInt = if w.toNat < 2 ^ 31 then (w.toNat : Int) else w.toNat - 2 ^ 32 := by
  have signed : w.toInt32.toInt = w.toBitVec.toInt := rfl
  have unsigned : w.toBitVec.toNat = w.toNat := rfl
  rw [signed, BitVec.toInt_eq_toNat_cond, unsigned]
  split <;> split <;> omega

/-- A scheduler that is made from settings runs one instruction at least. -/
theorem Scheduler.budget_ofSettings {B : Type} (s : Settings) :
    (ofSettings s : Scheduler (HostBody Float32 B)).budget.toNat
      = max s.instructionBudget.toNat 1 := by
  change (if s.instructionBudget = 0 then 1 else s.instructionBudget).toNat = _
  by_cases nothing : s.instructionBudget = 0
  · rw [if_pos nothing, nothing]
    rfl
  · have positive : s.instructionBudget.toNat ≠ 0 := fun h => nothing (UInt32.toNat_inj.1 h)
    rw [if_neg nothing]
    omega

open Settings in
/-- After a settings file has been loaded, each number is as it was if the file gives none, and what
the file gives, modulo `2 ^ 32`, if it gives one; a budget of nothing counts as one before that. So
the number is what the file gives just when that is below `2 ^ 32`, and the budget is nothing just
when the file gives a positive multiple of `2 ^ 32`, or it was nothing before and the file gives
none. The scheduler that is made from the settings has the budget that was loaded, or one in place
of nothing; and the viewport of the scene has the size that was loaded where that is below
`2 ^ 31`, and a negative one where it is not. -/
theorem loaded_numbers_are_reduced {B : Type} {s s' : Settings} {text : String}
    (loaded : s.load text = .ok s') : ∃ ini, Ini.read text = .ok ini ∧
      (∀ k : Quantity, (k.given? ini = none → k.of s' = k.of s) ∧
        ∀ n, k.given? ini = some n → (k.of s').toNat = k.meant n % 2 ^ 32 ∧
          ((k.of s').toNat = k.meant n ↔ k.meant n < 2 ^ 32)) ∧
      (s'.instructionBudget = 0 ↔
        (Quantity.instructionBudget.given? ini = none ∧ s.instructionBudget = 0) ∨
        ∃ n, Quantity.instructionBudget.given? ini = some n ∧ 0 < n.toNat ∧ 2 ^ 32 ∣ n.toNat) ∧
      (Scheduler.ofSettings s' : Scheduler (HostBody Float32 B)).budget.toNat
        = max s'.instructionBudget.toNat 1 ∧
      ∃ v, (World.ofSettings s' : World Float32 B).viewport = some v ∧
        (v.width.toInt = if s'.viewportWidth.toNat < 2 ^ 31 then (s'.viewportWidth.toNat : Int)
          else s'.viewportWidth.toNat - 2 ^ 32) ∧
        v.height.toInt = if s'.viewportHeight.toNat < 2 ^ 31 then (s'.viewportHeight.toNat : Int)
          else s'.viewportHeight.toNat - 2 ^ 32 := by
  obtain ⟨ini, read, rfl⟩ : ∃ ini, Ini.read text = .ok ini ∧ s.updated ini = s' := by
    unfold Settings.load at loaded
    cases read : Ini.read text with
    | error e => rw [read] at loaded; cases loaded
    | ok ini => rw [read] at loaded; exact ⟨ini, rfl, Except.ok.inj loaded⟩
  refine ⟨ini, read, fun k => ⟨Quantity.of_updated_none, fun n given => ?_⟩, ?_,
    Scheduler.budget_ofSettings _, _, rfl, toInt_toInt32 _, toInt_toInt32 _⟩
  · rw [Quantity.of_updated given]
    exact ⟨rfl, Nat.mod_eq_iff_lt (by decide)⟩
  · cases given : Quantity.instructionBudget.given? ini with
    | none =>
      have kept : (s.updated ini).instructionBudget = s.instructionBudget :=
        Quantity.of_updated_none given
      rw [kept]
      constructor
      · exact fun nothing => .inl ⟨rfl, nothing⟩
      · rintro (⟨-, nothing⟩ | ⟨n, hn, -⟩)
        · exact nothing
        · cases hn
    | some n =>
      have reduced : (s.updated ini).instructionBudget.toNat = max n.toNat 1 % 2 ^ 32 :=
        Quantity.of_updated given
      rw [← UInt32.toNat_inj, reduced, UInt32.toNat_zero]
      constructor
      · intro nothing
        exact .inr ⟨n, rfl, by omega, by omega⟩
      · rintro (⟨missing, -⟩ | ⟨m, hm, positive, multiple⟩)
        · cases missing
        · cases hm
          omega

/-! ## Large numbers -/

/-- A settings file with numbers that are too large, each in its own way: the width is beyond 32
bits, the height takes all 32 of them, and the budget has nothing in the last 32. -/
def wide : String :=
  "[viewport]\nwidth = 4294968096\nheight = 3000000000\n[sheep]\ninstruction_budget = 4294967296\n"

/-- What is written in it. -/
def wideEntries : Ini :=
  [⟨"viewport", "width", some "4294968096"⟩, ⟨"viewport", "height", some "3000000000"⟩,
    ⟨"sheep", "instruction_budget", some "4294967296"⟩]

/-- The wide file is read as the entries it was written from. -/
theorem read_wide : Ini.read wide = .ok wideEntries := by
  decide +kernel

/-- The wide file is loaded by updating the defaults with its entries. -/
theorem load_wide : Settings.default.load wide = .ok (Settings.default.updated wideEntries) := by
  unfold Settings.load
  rw [read_wide]
  rfl

/-- The width is reduced, the height becomes a negative one and the budget nothing, although the
scheduler runs one instruction. -/
theorem loaded_numbers_are_reduced_wide : ∃ s', Settings.default.load wide = .ok s' ∧
    s'.viewportWidth.toNat = 800 ∧ s'.instructionBudget = 0 ∧
      (Scheduler.ofSettings s' : Scheduler (HostBody Float32 Empty)).budget.toNat = 1 ∧
      ∃ v, (World.ofSettings s' : World Float32 Empty).viewport = some v ∧
        v.height.toInt = -1294967296 := by
  obtain ⟨ini, read, numbers, budget, scheduled, v, shown, -, height⟩ :=
    loaded_numbers_are_reduced (B := Empty) load_wide
  obtain rfl : wideEntries = ini := Except.ok.inj (read_wide.symm.trans read)
  have width := ((numbers .viewportWidth).2 4294968096 (by decide +kernel)).1
  have nothing := budget.2 (.inr ⟨4294967296, by decide +kernel, by decide, by decide⟩)
  refine ⟨_, load_wide, width, nothing, ?_, v, shown, height.trans (by decide +kernel)⟩
  rw [scheduled, nothing]
  rfl

/-- A number that is loaded may be neither the old one nor the one in the file, a budget may be
nothing, and a viewport may not have the size that was loaded. -/
theorem large_numbers_may_be_altered :
    (¬ ∀ (s' : Settings) (text : String) (ini : Ini), Ini.read text = .ok ini →
      Settings.default.load text = .ok s' → ∀ k : Settings.Quantity,
        k.of s' = k.of Settings.default ∨
          ∃ n, k.given? ini = some n ∧ (k.of s').toNat = k.meant n) ∧
    (¬ ∀ (s' : Settings) (text : String), Settings.default.load text = .ok s' →
      1 ≤ s'.instructionBudget.toNat) ∧
    ¬ ∀ (s' : Settings) (text : String) (v : Viewport), Settings.default.load text = .ok s' →
      (World.ofSettings s' : World Float32 Empty).viewport = some v →
        v.width.toInt = s'.viewportWidth.toNat ∧ v.height.toInt = s'.viewportHeight.toNat := by
  refine ⟨fun all => ?_, fun all => ?_, fun all => ?_⟩
  · have kept_or_given := all _ wide _ read_wide load_wide .viewportWidth
    revert kept_or_given
    decide +kernel
  · exact absurd (all _ wide load_wide) (by decide +kernel)
  · exact absurd (all _ wide _ load_wide rfl).2 (by decide +kernel)

end SheepScene
