import Mathlib.Algebra.Order.Ring.Int
import Mathlib.Algebra.Order.Group.Int
import SheepScene.Proofs.Machine.Operands

/-!
# Division and modulo

Division is one of the binary operators, and modulo is an instruction of its own. On integers they
fit together (`division_and_modulo_agree`): both fail for a divisor of zero, and otherwise the
quotient goes toward zero and the remainder is what is left. The least integer divided by minus one
wraps around to itself, with nothing left.
-/

set_option autoImplicit false

namespace SheepScene

/-! ## Integers of 32 bits -/

/-- Quotient and remainder make up the dividend, in the arithmetic of words. -/
theorem quotient_mul_add_remainder (a b : Int32) : a / b * b + a % b = a := by
  have quotient : a / b = Int32.ofInt (a.toInt.tdiv b.toInt) :=
    ((Int32.ofInt_eq_iff_bmod_eq_toInt _ _).2 (Int32.toInt_div a b).symm).symm
  have remainder : a % b = Int32.ofInt (a.toInt.tmod b.toInt) := by
    rw [← Int32.toInt_mod, Int32.ofInt_toInt]
  calc a / b * b + a % b
      = Int32.ofInt (a.toInt.tdiv b.toInt * b.toInt + a.toInt.tmod b.toInt) := by
        rw [quotient, remainder, Int32.ofInt_add, Int32.ofInt_mul, Int32.ofInt_toInt b]
    _ = a := by rw [Int.tdiv_mul_add_tmod, Int32.ofInt_toInt]

/-- A remainder is smaller than the divisor. -/
theorem abs_remainder_lt (a : Int32) {b : Int32} (hb : b ≠ 0) :
    |(a % b).toInt| < |b.toInt| := by
  have divisor : b.toInt.natAbs ≠ 0 := fun h =>
    hb (Int32.toInt_inj.1 ((Int.natAbs_eq_zero.1 h).trans Int32.toInt_zero.symm))
  rw [Int32.toInt_mod, Int.abs_eq_natAbs, Int.abs_eq_natAbs, Int.natAbs_tmod]
  exact Int.ofNat_lt.2 (Nat.mod_lt _ (Nat.pos_of_ne_zero divisor))

/-- A remainder is zero or has the sign of the dividend. -/
theorem sign_remainder (a b : Int32) :
    (a % b).toInt = 0 ∨ (a % b).toInt.sign = a.toInt.sign := by
  rw [Int32.toInt_mod, Int.sign_tmod]
  by_cases divides : b.toInt ∣ a.toInt
  · exact .inl (Int.dvd_iff_tmod_eq_zero.1 divides)
  · exact .inr (if_neg divides)

namespace Thread

/-! ## Operators on two operands -/

variable {W Body : Type}

/-- A step fails with an error, or it leaves a value on top of what was below its operands and goes
on. The world stays as it is. -/
def Delivers (host : Host W Body) (table : HostTable Body) (t : Thread) (w : W)
    (below : List Value) : Except ScriptError Value → Prop
  | .error e => ∃ t', step host table t w = .ok (t', .error e) w
  | .ok v => ∃ t', step host table t w = .ok (t', .ok .proceed) w ∧
      t'.stack.toList = below ++ [v]

variable (host : Host W Body) (table : HostTable Body) {t : Thread} {next : Nat}
  {below : List Value} {a b : Value}

/-- An instruction that takes two operands and makes a value of them delivers it. -/
theorem delivers_of_operands {w : W} {answer : Except ScriptError Value}
    {f : Value → Value → Exec Flow} (htop : t.stack.toList = below ++ [a, b])
    (hstep : step host table t w
      = runExec { t with pc := next } (do let b ← pop; let a ← pop; f a b) w)
    (hf : f a b = do push (← lift answer); return .proceed) :
    Delivers host table t w below answer := by
  have top : t.stack.toList = (below ++ [a]) ++ [b] := by
    rw [htop, List.append_assoc]
    rfl
  obtain ⟨first, hrest⟩ := Stack.pop_of_append top
  obtain ⟨second, hbelow⟩ := Stack.pop_of_append hrest
  have taken : (do let b ← pop; let a ← pop; f a b).run.run { t with pc := next }
      = (f a b).run.run { t with pc := next, stack := (t.stack.without 1).without 1 } := by
    rw [Exec.run_bind, Exec.run_pop, first]
    dsimp only
    rw [Exec.run_bind, Exec.run_pop, second]
  unfold Delivers
  rw [hstep, runExec_eq, taken, hf]
  cases answer with
  | error e => exact ⟨_, rfl⟩
  | ok v =>
    have room : ((t.stack.without 1).without 1).size < stackCapacity := by
      have bound : t.stack.size ≤ stackCapacity := t.stack.size_le
      rw [← Stack.length_toList, htop, List.length_append, List.length_cons] at bound
      rw [← Stack.length_toList, hbelow]
      omega
    obtain ⟨s, hpush, hlist⟩ := Stack.push_of_lt v room
    have run : (do push (← lift (.ok v)); return Flow.proceed : Exec Flow).run.run
        { t with pc := next, stack := (t.stack.without 1).without 1 }
          = (.ok .proceed, { t with pc := next, stack := s }) := by
      change (do push v; return Flow.proceed : Exec Flow).run.run _ = _
      rw [Exec.run_pushProceed]
      simp only [hpush]
    rw [run]
    exact ⟨_, rfl, by rw [hlist, hbelow]⟩

/-- A binary operator delivers its answer. -/
theorem delivers_binary {op : BinaryOp} {flavour : Numeric}
    (hdec : Instruction.decode t.script.bytecode t.pc = .ok (.binary op flavour, next))
    (htop : t.stack.toList = below ++ [a, b]) (w : W) :
    Delivers host table t w below (op.apply flavour t.script.strings t.pc a b) :=
  delivers_of_operands host table htop (step_of_alone host table hdec nofun w) rfl

/-- Modulo delivers the remainder of two integers. -/
theorem delivers_modulo {x y : Int32}
    (hdec : Instruction.decode t.script.bytecode t.pc = .ok (.modulo, next))
    (htop : t.stack.toList = below ++ [.int x, .int y]) (w : W) :
    Delivers host table t w below
      (if y = 0 then .error (.divideByZero t.pc) else .ok (.int (x % y))) := by
  refine delivers_of_operands host table htop (step_of_alone host table hdec nofun w) ?_
  by_cases hzero : y = 0
  · rw [if_pos hzero]
    simp only [number, Value.toInt?, pure_bind, if_pos hzero]
    rfl
  · rw [if_neg hzero]
    simp only [number, Value.toInt?, pure_bind, if_neg hzero]
    rfl

end Thread

/-- Division and modulo of two integers fit together. Both fail for a divisor of zero. For any other
divisor both go on, and quotient and remainder, in place of the operands, make up the dividend in
the arithmetic of words; the remainder is smaller than the divisor, and it is zero or has the sign
of the dividend. -/
theorem division_and_modulo_agree {W Body : Type} (host : Host W Body) (table : HostTable Body)
    {t u : Thread} {next next' : Nat} {below below' : List Value} {a b : Int32}
    (divides : Instruction.decode t.script.bytecode t.pc = .ok (.binary .divide .int, next))
    (dividesTop : t.stack.toList = below ++ [.int a, .int b])
    (modulo : Instruction.decode u.script.bytecode u.pc = .ok (.modulo, next'))
    (moduloTop : u.stack.toList = below' ++ [.int a, .int b]) (w w' : W) :
    (b = 0 →
      (∃ t', t.step host table w = .ok (t', .error (.divideByZero t.pc)) w) ∧
      ∃ u', u.step host table w' = .ok (u', .error (.divideByZero u.pc)) w') ∧
    (b ≠ 0 → ∃ q r : Int32,
      (∃ t', t.step host table w = .ok (t', .ok .proceed) w ∧
        t'.stack.toList = below ++ [.int q]) ∧
      (∃ u', u.step host table w' = .ok (u', .ok .proceed) w' ∧
        u'.stack.toList = below' ++ [.int r]) ∧
      a = q * b + r ∧ |r.toInt| < |b.toInt| ∧ (r.toInt = 0 ∨ r.toInt.sign = a.toInt.sign)) := by
  have quotient := Thread.delivers_binary host table divides dividesTop w
  have remainder := Thread.delivers_modulo host table modulo moduloTop w'
  simp only [BinaryOp.apply, BinaryOp.onInts] at quotient
  refine ⟨fun hzero => ?_, fun hb => ?_⟩
  · rw [if_pos hzero] at quotient remainder
    exact ⟨quotient, remainder⟩
  · rw [if_neg hb] at quotient remainder
    exact ⟨a / b, a % b, quotient, remainder, (quotient_mul_add_remainder a b).symm,
      abs_remainder_lt a hb, sign_remainder a b⟩

/-- A host that offers nothing. -/
def bareHost : Host Unit Empty where
  call := nofun
  isComplete _ _ := false
  report _ _ := ()

/-- A thread in front of the only instruction of its script, with two integers on its stack. -/
def calculator (opcode : UInt8) (a b : Int32) : Thread where
  id := 1
  script := { Script.blank "calculator" with bytecode := #[opcode] }
  function := "Main"
  pc := 0
  stack := ⟨#[.int a, .int b], Nat.le_add_left 2 1022⟩
  vars := #[]
  status := .ready
  waitDepth := 0
  waits := []

/-- The least integer can be divided by minus one, and not by zero. -/
theorem division_and_modulo_agree_least :
    (∃ q r : Int32,
      (∃ t', (calculator 0x1D (-2147483648) (-1)).step bareHost .empty ()
          = .ok (t', .ok .proceed) () ∧ t'.stack.toList = [.int q]) ∧
      (∃ u', (calculator 0x2F (-2147483648) (-1)).step bareHost .empty ()
          = .ok (u', .ok .proceed) () ∧ u'.stack.toList = [.int r]) ∧
      -2147483648 = q * -1 + r ∧ |r.toInt| < |(-1 : Int32).toInt| ∧
      (r.toInt = 0 ∨ r.toInt.sign = (-2147483648 : Int32).toInt.sign)) ∧
    ∃ t', (calculator 0x1D (-2147483648) 0).step bareHost .empty ()
      = .ok (t', .error (.divideByZero 0)) () := by
  have top : ∀ opcode b, (calculator opcode (-2147483648) b).stack.toList
      = [] ++ [.int (-2147483648), .int b] := fun _ _ => rfl
  have agree := fun b => division_and_modulo_agree bareHost .empty
    (t := calculator 0x1D (-2147483648) b) (u := calculator 0x2F (-2147483648) b)
    rfl (top _ _) rfl (top _ _) () ()
  exact ⟨(agree (-1)).2 (by decide), ((agree 0).1 rfl).1⟩

end SheepScene
