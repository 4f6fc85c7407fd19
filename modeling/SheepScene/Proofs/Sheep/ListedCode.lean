import SheepScene.Proofs.Json.Numerals
import SheepScene.Proofs.Number.PlainText
import SheepScene.Proofs.Sheep.EntryLines

/-!
# The code that a listing shows

A listing is written exactly for code that is made of instructions, and where it is not written the
first place that cannot be read is reported. One sweep from the start of the code decides which of
the two happens (`Bytecode.exists_sweep`), since each instruction that is read moves it forward.

The line of an instruction shows its address and its text, whatever comment follows
(`Script.shown_codeLines`). The text is a name and an operand, and that is all of the instruction:
no two opcodes share a name (`Instruction.opcode_of_mnemonic`), and an operand is read back from its
text (`Opcode.word_of_operandText?`). Floats that are no number are the exception, because they are
all written alike. So what the lines of a listing show says what the code is byte for byte
(`listings_determine_code`).
-/

set_option autoImplicit false

namespace SheepScene

open Bytecode (encodeAll decodeMany located instructionsFrom)

/-! ## One sweep over the code -/

namespace Bytecode

variable {code : Array UInt8} {pc stop n : Nat} {l : List Instruction}

/-- Behind the first instruction the others are read. -/
theorem decodeMany_succ {i : Instruction} {next : Nat}
    (h : Instruction.decode code pc = .ok (i, next)) :
    decodeMany code (n + 1) pc = (decodeMany code n next).map fun r => (i :: r.1, r.2) := by
  rw [decodeMany, h]
  change (decodeMany code n next >>= fun r => pure (i :: r.1, r.2)) = _
  cases decodeMany code n next <;> rfl

/-- What has been read are the instructions whose bytes were there. -/
theorem drop_of_decodeMany (h : decodeMany code n pc = .ok (l, stop)) :
    l.length = n ∧ stop = pc + (encodeAll l).length ∧
      code.toList.drop pc = encodeAll l ++ code.toList.drop stop := by
  induction n generalizing pc l with
  | zero =>
    cases h
    exact ⟨rfl, rfl, rfl⟩
  | succ n ih =>
    cases hfirst : Instruction.decode code pc with
    | error e =>
      rw [decodeMany, hfirst] at h
      cases h
    | ok first =>
      obtain ⟨i, next⟩ := first
      rw [decodeMany_succ hfirst] at h
      cases hrest : decodeMany code n next with
      | error e =>
        rw [hrest] at h
        cases h
      | ok rest =>
        obtain ⟨l', stop'⟩ := rest
        rw [hrest] at h
        cases h
        obtain ⟨rfl, here⟩ := Instruction.drop_of_decode hfirst
        obtain ⟨rfl, rfl, behind⟩ := ih hrest
        refine ⟨rfl, ?_, ?_⟩
        · rw [encodeAll_cons, List.length_append, Instruction.length_encode, Nat.add_assoc]
        · rw [here, behind, encodeAll_cons, List.append_assoc]

/-- All of the code has been read if and only if it is the bytes of the instructions. -/
theorem decodeMany_all_iff :
    decodeMany code n 0 = .ok (l, code.size) ↔ l.length = n ∧ code.toList = encodeAll l := by
  constructor
  · intro h
    obtain ⟨length, -, bytes⟩ := drop_of_decodeMany h
    refine ⟨length, ?_⟩
    rw [List.drop_zero, ← Array.length_toList, List.drop_length, List.append_nil] at bytes
    exact bytes
  · rintro ⟨rfl, bytes⟩
    have parts : code.toList.drop 0 = encodeAll l ++ [] := by simpa using bytes
    have read := decodeMany_of_drop parts
    rwa [← bytes, Nat.zero_add, Array.length_toList] at read

/-- Reading from the start either arrives at the end or at a place that cannot be read. The
induction is on how much is left. -/
theorem exists_sweep (h : pc ≤ code.size) : ∃ n l stop, decodeMany code n pc = .ok (l, stop) ∧
    (stop = code.size ∨ stop < code.size ∧ ∃ e, Instruction.decode code stop = .error e) := by
  induction hleft : code.size - pc using Nat.strongRecOn generalizing pc with
  | ind left ih =>
    rcases Nat.eq_or_lt_of_le h with ended | inside
    · exact ⟨0, [], pc, rfl, .inl ended⟩
    · cases hfirst : Instruction.decode code pc with
      | error e => exact ⟨0, [], pc, rfl, .inr ⟨inside, e, hfirst⟩⟩
      | ok first =>
        obtain ⟨i, next⟩ := first
        have forward := Instruction.lt_of_decode hfirst
        have within := (Instruction.decode_eq_ok_iff.1 hfirst).2.1
        obtain ⟨n, l, stop, read, outcome⟩ := ih (code.size - next) (by omega) within rfl
        refine ⟨n + 1, i :: l, stop, ?_, outcome⟩
        rw [decodeMany_succ hfirst, read]
        rfl

/-- A place that cannot be read ends the reading. -/
theorem instructionsFrom_of_error {e : ScriptError} (inside : pc < code.size)
    (h : Instruction.decode code pc = .error e) : instructionsFrom code pc = .error e := by
  rw [instructionsFrom, if_pos inside]
  split
  · rename_i e' failed
    rw [h] at failed
    cases failed
    rfl
  · rename_i i next ok
    rw [h] at ok
    cases ok

/-- Reading to the end goes on behind an instruction. -/
theorem instructionsFrom_of_decode {i : Instruction} {next : Nat}
    (h : Instruction.decode code pc = .ok (i, next)) :
    instructionsFrom code pc = (instructionsFrom code next).map ((pc, i) :: ·) := by
  have inside : pc < code.size :=
    Nat.lt_of_lt_of_le (Instruction.lt_of_decode h) (Instruction.decode_eq_ok_iff.1 h).2.1
  rw [instructionsFrom, if_pos inside]
  split
  · rename_i e failed
    rw [h] at failed
    cases failed
  · rename_i i' next' ok
    rw [h] at ok
    cases ok
    cases instructionsFrom code next <;> rfl

/-- Reading to the end goes on behind the instructions that the code begins with. -/
theorem instructionsFrom_append {rest : List UInt8}
    (h : code.toList.drop pc = encodeAll l ++ rest) :
    instructionsFrom code pc
      = (instructionsFrom code (pc + (encodeAll l).length)).map (located pc l ++ ·) := by
  induction l generalizing pc with
  | nil =>
    rw [encodeAll_nil, List.length_nil, Nat.add_zero]
    cases instructionsFrom code pc <;> rfl
  | cons i l ih =>
    rw [encodeAll_cons, List.append_assoc] at h
    rw [instructionsFrom_of_decode (Instruction.decode_of_drop h), ih (drop_add_size h),
      encodeAll_cons, List.length_append, Instruction.length_encode, Nat.add_assoc]
    cases instructionsFrom code (pc + (i.size + (encodeAll l).length)) <;> rfl

/-- All of the code is read as instructions if and only if it is made of them. -/
theorem instructionsFrom_start_iff {instructions : List (Nat × Instruction)} :
    instructionsFrom code 0 = .ok instructions ↔
      ∃ l, decodeMany code l.length 0 = .ok (l, code.size) ∧ instructions = located 0 l := by
  constructor
  · intro h
    obtain ⟨n, l, stop, read, outcome⟩ := exists_sweep (Nat.zero_le code.size)
    obtain ⟨rfl, rfl, bytes⟩ := drop_of_decodeMany read
    rcases outcome with ended | ⟨inside, e, failed⟩
    · rw [ended] at read
      have bytes : code.toList.drop 0 = encodeAll l := (decodeMany_all_iff.1 read).2
      rw [instructionsFrom_of_drop bytes] at h
      exact ⟨l, read, (Except.ok.inj h).symm⟩
    · rw [instructionsFrom_append bytes, instructionsFrom_of_error inside failed] at h
      cases h
  · rintro ⟨l, read, rfl⟩
    exact instructionsFrom_of_drop (decodeMany_all_iff.1 read).2

/-- The code cannot be read to its end if and only if a place is reached that cannot be read, and
then that is the error. -/
theorem instructionsFrom_start_error_iff {e : ScriptError} :
    instructionsFrom code 0 = .error e ↔
      ∃ n l pc, decodeMany code n 0 = .ok (l, pc) ∧ pc < code.size ∧
        Instruction.decode code pc = .error e := by
  -- Behind the instructions that have been read the error is the one of the next place.
  have reported : ∀ {n l stop e'}, decodeMany code n 0 = .ok (l, stop) → stop < code.size →
      Instruction.decode code stop = .error e' → instructionsFrom code 0 = .error e' := by
    intro n l stop e' read inside failed
    obtain ⟨rfl, rfl, bytes⟩ := drop_of_decodeMany read
    rw [instructionsFrom_append bytes, instructionsFrom_of_error inside failed]
    rfl
  constructor
  · intro h
    obtain ⟨n, l, stop, read, outcome⟩ := exists_sweep (Nat.zero_le code.size)
    rcases outcome with rfl | ⟨inside, e', failed⟩
    · obtain ⟨length, -⟩ := decodeMany_all_iff.1 read
      rw [instructionsFrom_start_iff.2 ⟨l, length ▸ read, rfl⟩] at h
      cases h
    · have same := reported read inside failed
      rw [h] at same
      cases same
      exact ⟨n, l, stop, read, inside, failed⟩
  · rintro ⟨n, l, stop, read, inside, failed⟩
    exact reported read inside failed

end Bytecode

namespace Script

variable {s : Script}

/-- A listing is written of the instructions that make up the code. -/
theorem listing_eq_ok_iff {text : String} : s.listing = .ok text ↔
    ∃ l, decodeMany s.bytecode l.length 0 = .ok (l, s.bytecode.size) ∧
      text = s.render (s.codeLines (located 0 l)) := by
  rw [listing_eq]
  constructor
  · intro h
    cases read : instructionsFrom s.bytecode 0 with
    | error e =>
      rw [read] at h
      cases h
    | ok instructions =>
      obtain ⟨l, all, rfl⟩ := Bytecode.instructionsFrom_start_iff.1 read
      rw [read] at h
      cases h
      exact ⟨l, all, rfl⟩
  · rintro ⟨l, all, rfl⟩
    rw [Bytecode.instructionsFrom_start_iff.2 ⟨l, all, rfl⟩]
    rfl

/-- No listing is written of code in which a place is reached that cannot be read. -/
theorem listing_eq_error_iff {e : ScriptError} : s.listing = .error e ↔
    ∃ n l pc, decodeMany s.bytecode n 0 = .ok (l, pc) ∧ pc < s.bytecode.size ∧
      Instruction.decode s.bytecode pc = .error e := by
  rw [← Bytecode.instructionsFrom_start_error_iff, listing_eq]
  cases instructionsFrom s.bytecode 0 <;> simp [Except.map]

end Script

/-! ## Numbers in hexadecimal -/

namespace Text

/-- The number that hexadecimal digits stand for. -/
def hexValue (digits : List Char) : Nat :=
  digits.foldl (fun n c => 16 * n + (Json.hexDigit? c).getD 0) 0

/-- A hexadecimal digit is read as its value. -/
theorem hexDigit?_digitChar : ∀ n < 16, Json.hexDigit? (Nat.digitChar n) = some n := by
  decide

/-- A hexadecimal number is read as its value. -/
theorem hexValue_toDigits (n : Nat) : hexValue (Nat.toDigits 16 n) = n := by
  induction n using Nat.strongRecOn with
  | ind n ih =>
    by_cases small : n < 16
    · rw [Nat.toDigits_of_lt_base small, hexValue, List.foldl_cons, List.foldl_nil,
        hexDigit?_digitChar n small]
      simp
    · have last : n % 16 < 16 := Nat.mod_lt n (by decide)
      have before := ih (n / 16) (by omega)
      rw [hexValue] at before
      rw [Nat.toDigits_of_base_le (by decide) (by omega), hexValue, List.foldl_append, before,
        List.foldl_cons, List.foldl_nil, hexDigit?_digitChar _ last, Option.getD_some]
      exact Nat.div_add_mod n 16

/-- Zeros in front change nothing. -/
theorem hexValue_hexDigits (width n : Nat) : hexValue (hexDigits width n) = n := by
  have zeros : ∀ count, hexValue (List.replicate count '0' ++ Nat.toDigits 16 n) = n := by
    intro count
    induction count with
    | zero => exact hexValue_toDigits n
    | succ count ih => exact ih
  exact zeros _

/-- Hexadecimal numbers consist of letters and digits. -/
theorem isAlphanum_of_mem_toDigits {n : Nat} {c : Char} (h : c ∈ Nat.toDigits 16 n) :
    c.isAlphanum = true := by
  have digit : ∀ n < 16, (Nat.digitChar n).isAlphanum = true := by decide
  induction n using Nat.strongRecOn with
  | ind n ih =>
    by_cases small : n < 16
    · rw [Nat.toDigits_of_lt_base small, List.mem_singleton] at h
      rw [h]
      exact digit n small
    · rw [Nat.toDigits_of_base_le (by decide) (by omega), List.mem_append,
        List.mem_singleton] at h
      rcases h with h | rfl
      · exact ih (n / 16) (by omega) h
      · exact digit _ (Nat.mod_lt n (by decide))

/-- Addresses consist of letters and digits. -/
theorem isAlphanum_of_mem_address {n : Nat} {c : Char} (h : c ∈ (address n).toList) :
    c.isAlphanum = true := by
  rw [address, String.toList_ofList, List.mem_cons, List.mem_cons, hexDigits, List.mem_append] at h
  rcases h with rfl | rfl | h | h
  · rfl
  · rfl
  · rw [List.eq_of_mem_replicate h]
    rfl
  · exact isAlphanum_of_mem_toDigits h

/-- Addresses are written without blanks. -/
theorem blank_not_mem_address (n : Nat) : ' ' ∉ (address n).toList :=
  fun h => absurd (isAlphanum_of_mem_address h) (by decide)

/-- A place is read back from its address. -/
theorem address_inj {n n' : Nat} (h : address n = address n') : n = n' := by
  have digits : hexDigits 4 n = hexDigits 4 n' := by
    simpa [address] using congrArg String.toList h
  rw [← hexValue_hexDigits 4 n, digits, hexValue_hexDigits]

end Text

/-! ## Numbers in decimal -/

namespace Text

/-- Natural numbers consist of digits. -/
theorem isAlphanum_of_mem_nat {n : Nat} {c : Char} (h : c ∈ (toString n).toList) :
    c.isAlphanum = true := by
  rw [Nat.toString_eq_ofList_toDigits, String.toList_ofList] at h
  have digit := Nat.isDigit_of_mem_toDigits (by decide) (by decide) h
  simp [Char.isAlphanum, digit]

/-- Integers consist of digits, but for a sign. -/
theorem mem_int {n : Int} {c : Char} (h : c ∈ (toString n).toList) :
    c.isAlphanum = true ∨ c = '-' := by
  cases n with
  | ofNat n => exact .inl (isAlphanum_of_mem_nat (n := n) h)
  | negSucc n =>
    have parts : (toString (Int.negSucc n)).toList = '-' :: (toString (n + 1)).toList := by
      change ("-" ++ toString (n + 1)).toList = _
      rw [String.toList_append]
      rfl
    rw [parts, List.mem_cons] at h
    exact h.elim .inr fun h => .inl (isAlphanum_of_mem_nat h)

end Text

/-! ## Texts of instructions -/

/-- Whether an instruction pushes a float that is no number. -/
def Instruction.pushesNaN : Instruction → Bool
  | .pushF bits => Binary32.read (Float32.ofBits bits) = .notANumber
  | _ => false

namespace Opcode

/-- An operand is read back from its text, unless it is a float that is no number. -/
theorem word_of_operandText? {byte : UInt8} {build : UInt32 → Instruction}
    (h : ofByte? byte = some (.withWord build)) {w w' : UInt32}
    (number : ¬ (build w).pushesNaN) (number' : ¬ (build w').pushesNaN)
    (same : (build w).operandText? = (build w').operandText?) : w = w' := by
  have address (h : Text.address w.toNat = Text.address w'.toNat) : w = w' :=
    UInt32.toNat_inj.1 (Text.address_inj h)
  have decimal (h : toString w.toNat = toString w'.toNat) : w = w' :=
    UInt32.toNat_inj.1 (Numeral.toString_nat_inj h)
  have signed (h : toString w.toInt32.toInt = toString w'.toInt32.toInt) : w = w' := by
    rw [← UInt32.toUInt32_toInt32 w, Int32.toInt_inj.1 (Numeral.toString_int_inj h),
      UInt32.toUInt32_toInt32]
  have float (number : ¬ (Instruction.pushF w).pushesNaN)
      (number' : ¬ (Instruction.pushF w').pushesNaN)
      (h : FloatLayout.plain.write (Float32.ofBits w)
        = FloatLayout.plain.write (Float32.ofBits w')) : w = w' := by
    simp only [Instruction.pushesNaN, decide_eq_true_eq] at number number'
    exact Binary32.ofBits_inj number (FloatLayout.write_plain_inj number number' h)
  -- Each operand is written in one of these four ways.
  unfold ofByte? at h
  split at h <;> cases h <;> replace same := Option.some.inj same <;>
    first
    | exact decimal same
    | exact address same
    | exact signed same
    | exact float number number' same

/-- An instruction is what its opcode means, completed by a word. -/
theorem exists_complete (i : Instruction) :
    ∃ meaning word, ofByte? i.opcode = some meaning ∧ meaning.complete word = i := by
  have meaning := ofByte?_opcode i
  cases hword : i.word? with
  | none =>
    rw [hword] at meaning
    exact ⟨.plain i, 0, meaning, rfl⟩
  | some word =>
    rw [hword] at meaning
    obtain ⟨build, hbuild, hi⟩ := meaning
    exact ⟨.withWord build, word, hbuild, hi⟩

/-- The name of the instructions with an opcode. -/
def mnemonic? (byte : UInt8) : Option String :=
  (ofByte? byte).map fun meaning => (meaning.complete 0).mnemonic

/-- Every mnemonic belongs to its opcode. -/
theorem mnemonic?_opcode (i : Instruction) : mnemonic? i.opcode = some i.mnemonic := by
  cases i with
  | callSysFunction kind index => rcases kind with _ | _ | _ | _ <;> rfl
  | store kind index | load kind index => cases kind <;> rfl
  | binary op flavour => cases op <;> cases flavour <;> rfl
  | negate flavour => cases flavour <;> rfl
  | _ => rfl

/-- No two opcodes share a name. -/
theorem mnemonic?_inj {a b : UInt8} {name : String} (ha : mnemonic? a = some name)
    (hb : mnemonic? b = some name) : a = b := by
  -- Looking for a name finds the opcode that it is the name of.
  have found : ∀ n < 256, ∀ name ∈ mnemonic? (.ofNat n),
      (List.range 256).find? (fun n' => mnemonic? (.ofNat n') = some name) = some n := by
    decide +kernel
  have here := found _ a.toNat_lt name (by rwa [UInt8.ofNat_toNat])
  rw [found _ b.toNat_lt name (by rwa [UInt8.ofNat_toNat])] at here
  exact UInt8.toNat_inj.1 (Option.some.inj here).symm

end Opcode

namespace Instruction

/-- The name of an instruction says which one it is, up to its operand. -/
theorem opcode_of_mnemonic {i j : Instruction} (h : i.mnemonic = j.mnemonic) :
    i.opcode = j.opcode :=
  Opcode.mnemonic?_inj (Opcode.mnemonic?_opcode i) (h ▸ Opcode.mnemonic?_opcode j)

/-- Names consist of letters. -/
theorem isAlpha_of_mem_mnemonic {i : Instruction} {c : Char} (h : c ∈ i.mnemonic.toList) :
    c.isAlpha = true := by
  have letters : ∀ n < 256, ∀ name ∈ Opcode.mnemonic? (.ofNat n),
      name.toList.all Char.isAlpha = true := by decide +kernel
  have named := Opcode.mnemonic?_opcode i
  refine List.all_eq_true.1 (letters _ i.opcode.toNat_lt i.mnemonic ?_) c h
  rwa [UInt8.ofNat_toNat]

/-- Names are written without blanks. -/
theorem blank_not_mem_mnemonic (i : Instruction) : ' ' ∉ i.mnemonic.toList :=
  fun h => absurd (isAlpha_of_mem_mnemonic h) (by decide)

/-- Operands consist of letters and digits, but for a sign and a point. -/
theorem mem_operandText? {i : Instruction} {operand : String} (h : i.operandText? = some operand)
    {c : Char} (hc : c ∈ operand.toList) : c.isAlphanum = true ∨ c = '-' ∨ c = '.' := by
  cases i with
  | branch | branchGoto | branchIfZero =>
    cases h
    exact .inl (Text.isAlphanum_of_mem_address hc)
  | callSysFunction | store | load | pushS | pop =>
    cases h
    exact .inl (Text.isAlphanum_of_mem_nat hc)
  | pushI =>
    cases h
    exact (Text.mem_int hc).imp_right .inl
  | pushF =>
    cases h
    exact FloatLayout.mem_write_plain hc
  | _ => cases h

/-- The text of an instruction is its mnemonic and then, after a blank, its operand, if it has one.
-/
theorem toList_text (i : Instruction) : i.text.toList
    = i.mnemonic.toList ++ i.operandText?.elim [] fun operand => ' ' :: operand.toList := by
  unfold text
  cases i.operandText? <;> simp

/-- A text is taken apart at its blank into the name and the operand. -/
theorem parts_of_text {i j : Instruction} (h : i.text = j.text) :
    i.mnemonic = j.mnemonic ∧ i.operandText? = j.operandText? := by
  have name (k : Instruction) : k.text.toList.takeWhile (· ≠ ' ') = k.mnemonic.toList := by
    rw [toList_text, List.takeWhile_append_of_pos]
    · cases k.operandText? <;> simp
    · intro c member
      simpa using fun blank : c = ' ' => k.blank_not_mem_mnemonic (blank ▸ member)
  have mnemonic : i.mnemonic = j.mnemonic := by
    rw [← String.toList_inj, ← name i, h, name j]
  refine ⟨mnemonic, ?_⟩
  have operands : (i.operandText?.elim [] fun operand => ' ' :: operand.toList)
      = j.operandText?.elim [] fun operand => ' ' :: operand.toList := by
    have texts := congrArg String.toList h
    rw [toList_text, toList_text, mnemonic] at texts
    exact List.append_cancel_left texts
  cases hi : i.operandText? with
  | none =>
    cases hj : j.operandText? with
    | none => rfl
    | some operand' => simp [hi, hj] at operands
  | some operand =>
    cases hj : j.operandText? with
    | none => simp [hi, hj] at operands
    | some operand' => simpa [hi, hj, String.toList_inj] using operands

/-- Instructions with one text are the same, unless they push floats that are no numbers. -/
theorem eq_of_text {i j : Instruction} (hi : ¬ i.pushesNaN) (hj : ¬ j.pushesNaN)
    (h : i.text = j.text) : i = j := by
  obtain ⟨name, operand⟩ := parts_of_text h
  have opcode := opcode_of_mnemonic name
  obtain ⟨meaning, word, first, rfl⟩ := Opcode.exists_complete i
  obtain ⟨meaning', word', second, rfl⟩ := Opcode.exists_complete j
  rw [opcode, second] at first
  cases first
  cases meaning with
  | plain i => rfl
  | withWord build => exact congrArg build (Opcode.word_of_operandText? second hi hj operand)

/-- Texts of instructions, one after the other, say what the instructions are. -/
theorem eq_of_map_text {l l' : List Instruction} (hl : ∀ i ∈ l, ¬ i.pushesNaN)
    (hl' : ∀ i ∈ l', ¬ i.pushesNaN) (h : l.map text = l'.map text) : l = l' := by
  induction l generalizing l' with
  | nil => exact (List.map_eq_nil_iff.1 h.symm).symm
  | cons i l ih =>
    cases l' with
    | nil => cases h
    | cons j l' =>
      obtain ⟨head, tail⟩ := List.cons.inj h
      rw [List.forall_mem_cons] at hl hl'
      rw [eq_of_text hl.1 hl'.1 head, ih hl.2 hl'.2 tail]

/-- A text is written without the mark of a comment. -/
theorem semicolon_not_mem_text (i : Instruction) : ';' ∉ i.text.toList := by
  rw [toList_text, List.mem_append]
  rintro (name | operand)
  · exact absurd (isAlpha_of_mem_mnemonic name) (by decide)
  · cases hi : i.operandText? with
    | none =>
      rw [hi] at operand
      cases operand
    | some word =>
      rw [hi] at operand
      rcases List.mem_cons.1 operand with blank | hc
      · cases blank
      · exact absurd (mem_operandText? hi hc) (by decide)

end Instruction

/-! ## Lines of instructions -/

namespace Text

/-- What a line says when its comment, and the two blanks before it, are taken away. -/
def uncommented (line : List Char) : List Char :=
  if ';' ∈ line then (line.takeWhile (· ≠ ';')).dropLast.dropLast else line

/-- Without a comment nothing is taken away. -/
theorem uncommented_plain {line : List Char} (h : ';' ∉ line) : uncommented line = line :=
  if_neg h

/-- What stands before a comment is left. -/
theorem uncommented_append {line : List Char} (h : ';' ∉ line) (comment : List Char) :
    uncommented (line ++ ' ' :: ' ' :: ';' :: comment) = line := by
  have plain : ∀ c ∈ line ++ [' ', ' '], decide (c ≠ ';') = true := by
    intro c hc
    rw [decide_eq_true_eq]
    rintro rfl
    exact (List.mem_append.1 hc).elim h (by decide)
  have before :
      (line ++ ' ' :: ' ' :: ';' :: comment).takeWhile (· ≠ ';') = line ++ [' ', ' '] := by
    rw [show line ++ ' ' :: ' ' :: ';' :: comment = (line ++ [' ', ' ']) ++ ';' :: comment by simp,
      List.takeWhile_append_of_pos plain]
    simp
  have marked : ';' ∈ line ++ ' ' :: ' ' :: ';' :: comment := by simp
  rw [uncommented, if_pos marked, before]
  simp

end Text

namespace CodeLine

/-- The two columns of the line of an instruction, each behind two blanks: the address and the text.
-/
def columns (pc : Nat) (i : Instruction) : List Char :=
  ' ' :: ' ' :: ((Text.address pc).toList ++ ' ' :: ' ' :: i.text.toList)

/-- The columns are written without the mark of a comment. -/
theorem semicolon_not_mem_columns (pc : Nat) (i : Instruction) : ';' ∉ columns pc i := by
  intro h
  simp only [columns, List.mem_cons, List.mem_append] at h
  rcases h with h | h | h | h | h | h
  · cases h
  · cases h
  · exact absurd (Text.isAlphanum_of_mem_address h) (by decide)
  · cases h
  · cases h
  · exact i.semicolon_not_mem_text h

/-- The address and the text that the line of an instruction shows: two columns, each behind two
blanks, and a comment that does not count. -/
def read (line : String) : String × String :=
  let columns := (Text.uncommented line.toList).drop 2
  (String.ofList (columns.takeWhile (· ≠ ' ')),
    String.ofList ((columns.dropWhile (· ≠ ' ')).drop 2))

end CodeLine

namespace Script

variable (s : Script)

/-- What the line of an instruction says without its comment are the two columns. -/
theorem uncommented_instructionLine (pc : Nat) (i : Instruction) :
    Text.uncommented (s.instructionLine pc i).toList = CodeLine.columns pc i := by
  have written : ∀ comment : String, ("  " ++ Text.address pc ++ "  " ++ i.text ++ comment).toList
      = CodeLine.columns pc i ++ comment.toList := by
    intro comment
    simp [CodeLine.columns]
  have unmarked := CodeLine.semicolon_not_mem_columns pc i
  unfold instructionLine
  cases s.reference? i with
  | none =>
    refine (congrArg Text.uncommented (written "")).trans ?_
    rw [String.toList_empty, List.append_nil, Text.uncommented_plain unmarked]
  | some text =>
    refine (congrArg Text.uncommented (written ("  ; " ++ text))).trans ?_
    rw [String.toList_append]
    exact Text.uncommented_append unmarked (' ' :: text.toList)

/-- The line of an instruction shows its address and its text. -/
theorem read_instructionLine (pc : Nat) (i : Instruction) :
    CodeLine.read (s.instructionLine pc i) = (Text.address pc, i.text) := by
  have unbroken : ∀ c ∈ (Text.address pc).toList, decide (c ≠ ' ') = true := by
    intro c hc
    rw [decide_eq_true_eq]
    rintro rfl
    exact Text.blank_not_mem_address pc hc
  unfold CodeLine.read
  rw [uncommented_instructionLine]
  change (String.ofList (((Text.address pc).toList ++ ' ' :: ' ' :: i.text.toList).takeWhile _),
    String.ofList ((((Text.address pc).toList ++ ' ' :: ' ' :: i.text.toList).dropWhile _).drop 2))
      = _
  rw [List.takeWhile_append_of_pos unbroken, List.dropWhile_append_of_pos unbroken]
  simp

/-- What the lines of the instructions show, in order: addresses and texts. -/
def shown (lines : List CodeLine) : List (String × String) :=
  lines.filterMap fun line => line.instruction?.map fun _ => CodeLine.read (line.text s)

/-- The lines of the code show the places and the texts of the instructions. -/
theorem shown_codeLines (instructions : List (Nat × Instruction)) :
    s.shown (s.codeLines instructions)
      = instructions.map fun (pc, i) => (Text.address pc, i.text) := by
  have each : (fun line : CodeLine => line.instruction?.map fun _ => CodeLine.read (line.text s))
      = fun line => line.instruction?.map fun (pc, i) => (Text.address pc, i.text) := by
    funext line
    cases line with
    | entry f => rfl
    | instruction pc i => exact congrArg some (s.read_instructionLine pc i)
  have same : (s.codeLines instructions).filterMap CodeLine.instruction? = instructions :=
    s.instruction?_codeLines
  have mapped :=
    congrArg (List.map fun (x : Nat × Instruction) => (Text.address x.1, x.2.text)) same
  rw [List.map_filterMap] at mapped
  rw [shown, each]
  exact mapped

/-- The texts that the lines of the code show are those of the instructions. -/
theorem shown_texts (l : List Instruction) :
    (s.shown (s.codeLines (located 0 l))).map Prod.snd = l.map Instruction.text := by
  have texts : ∀ pc, (located pc l).map (fun x => x.2.text) = l.map Instruction.text := by
    induction l with
    | nil => exact fun _ => rfl
    | cons i l ih => exact fun pc => congrArg (i.text :: ·) (ih _)
  rw [shown_codeLines, List.map_map]
  exact texts 0

end Script

/-- Code is listed if and only if reading instructions from its start one after the other arrives at
exactly its end; otherwise the error is that of the first place that cannot be read. A listing has
lines of the instructions, and these show the address and the text of each of them, in order. If two
scripts are listed and push no floats that are no numbers, and the lines show the same texts, names
and operands without comments, then their code is the same, byte for byte. -/
theorem listings_determine_code :
    (∀ s : Script,
      (∀ text, s.listing = .ok text ↔
        ∃ l, decodeMany s.bytecode l.length 0 = .ok (l, s.bytecode.size) ∧
          text = s.render (s.codeLines (located 0 l))) ∧
      (∀ e, s.listing = .error e ↔
        ∃ n l pc, decodeMany s.bytecode n 0 = .ok (l, pc) ∧ pc < s.bytecode.size ∧
          Instruction.decode s.bytecode pc = .error e) ∧
      ∀ l, s.shown (s.codeLines (located 0 l))
        = (located 0 l).map fun (pc, i) => (Text.address pc, i.text)) ∧
    ∀ (s s' : Script) (l l' : List Instruction),
      decodeMany s.bytecode l.length 0 = .ok (l, s.bytecode.size) →
      decodeMany s'.bytecode l'.length 0 = .ok (l', s'.bytecode.size) →
      (∀ i ∈ l ++ l', ¬ i.pushesNaN) →
      (s.shown (s.codeLines (located 0 l))).map Prod.snd
        = (s'.shown (s'.codeLines (located 0 l'))).map Prod.snd → s.bytecode = s'.bytecode := by
  refine ⟨fun s => ⟨fun _ => Script.listing_eq_ok_iff, fun _ => Script.listing_eq_error_iff,
    fun l => s.shown_codeLines (located 0 l)⟩, ?_⟩
  intro s s' l l' read read' numbers texts
  rw [Script.shown_texts, Script.shown_texts] at texts
  have same : l = l' := Instruction.eq_of_map_text
    (fun i member => numbers i (List.mem_append_left l' member))
    (fun i member => numbers i (List.mem_append_right l member)) texts
  obtain ⟨-, bytes⟩ := Bytecode.decodeMany_all_iff.1 read
  obtain ⟨-, bytes'⟩ := Bytecode.decodeMany_all_iff.1 read'
  exact Array.toList_inj.1 (by rw [bytes, bytes', same])

/-- Code in which each way to write an operand occurs: in decimal with and without a sign, as a
float and as an address. -/
def Bytecode.assorted : List Instruction :=
  [.pushI (-3), .pushF 0x40200000, .branchIfZero 0x10000, .callSysFunction (some .int) 7, .returnV]

/-- The lines of such code show its addresses and texts, also behind an entry point and before a
comment, and the code is the same bytes in a script without either. -/
theorem listings_determine_code_assorted :
    let code := (encodeAll Bytecode.assorted).toArray
    let code' : Array UInt8 := #[0x13, 0xFD, 0xFF, 0xFF, 0xFF, 0x14, 0x00, 0x00, 0x20, 0x40,
      0x08, 0x00, 0x00, 0x01, 0x00, 0x03, 0x07, 0x00, 0x00, 0x00, 0x0B]
    let s : Script := { Script.blank "s" with
      bytecode := code
      functions := #[⟨"main", 0⟩]
      imports := .replicate 8 ⟨"Random", 1⟩ }
    let s' : Script := { Script.blank "s" with bytecode := code' }
    (∃ text, s.listing = .ok text) ∧
    { s with bytecode := code.pop.push 0x0C }.listing = .error (.unknownOpcode 20 0x0C) ∧
    s.shown (s.codeLines (located 0 Bytecode.assorted))
      = [("0x0000", "PushI -3"), ("0x0005", "PushF 2.5"), ("0x000a", "BranchIfZero 0x10000"),
        ("0x000f", "CallSysFunctionI 7"), ("0x0014", "ReturnV")] ∧
    s.bytecode = s'.bytecode := by
  intro code code' s s'
  have read : decodeMany code 5 0 = .ok (Bytecode.assorted, code.size) := by decide +kernel
  have read' : decodeMany code' 5 0 = .ok (Bytecode.assorted, code'.size) := by decide +kernel
  have numbers : ∀ i ∈ Bytecode.assorted ++ Bytecode.assorted, ¬ i.pushesNaN := by decide +kernel
  have columns : (located 0 Bytecode.assorted).map (fun (pc, i) => (Text.address pc, i.text))
      = [("0x0000", "PushI -3"), ("0x0005", "PushF 2.5"), ("0x000a", "BranchIfZero 0x10000"),
        ("0x000f", "CallSysFunctionI 7"), ("0x0014", "ReturnV")] := by decide +kernel
  obtain ⟨listing, determined⟩ := listings_determine_code
  refine ⟨⟨_, ((listing s).1 _).2 ⟨Bytecode.assorted, read, rfl⟩⟩, ?_,
    ((listing s).2.2 Bytecode.assorted).trans columns,
    determined s s' Bytecode.assorted Bytecode.assorted read read' numbers ?_⟩
  · exact ((listing _).2.1 _).2 ⟨4, Bytecode.assorted.dropLast, 20, by decide +kernel,
      by decide +kernel, by decide +kernel⟩
  · rw [Script.shown_texts, Script.shown_texts]

end SheepScene
