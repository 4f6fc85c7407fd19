import SheepScene.Sheep.Encoding

/-!
# The bytecode as a code

Encoding and decoding are written independently of each other: an instruction knows its opcode and
its operand, and a byte is looked up in a table of opcodes. They agree in both directions
(`bytecode_is_exact_code`): instructions that are written one after the other are read back wherever
they stand, what can be read is what would have been written, and reading fails for the two reasons
there are and for no other.

Positions in the code are seen as ways to split it: `decode_of_drop` reads an instruction from the
front of what is left of the code, and `drop_of_decode` says what was there when one has been read.
-/

set_option autoImplicit false

namespace SheepScene

/-! ## Operands -/

namespace Bytecode

/-- The word of the bytes of a word is that word. -/
theorem wordOfBytes_wordBytes (w : UInt32) :
    wordOfBytes w.toUInt8 (w >>> 8).toUInt8 (w >>> 16).toUInt8 (w >>> 24).toUInt8 = w := by
  apply UInt32.toBitVec_inj.1
  unfold wordOfBytes
  ext i hi
  simp [-UInt32.toUInt32_toUInt8]
  grind

/-- The bytes of the word of four bytes are these. -/
theorem wordBytes_wordOfBytes (a b c d : UInt8) :
    wordBytes (wordOfBytes a b c d) = [a, b, c, d] := by
  unfold wordBytes wordOfBytes
  simp only [List.cons.injEq, and_true]
  refine ⟨?_, ?_, ?_, ?_⟩ <;> apply UInt8.toBitVec_inj.1 <;> ext i hi <;> simp <;> grind

/-- What is left of the code from a position on begins with the byte there. -/
theorem drop_eq_cons {code : Array UInt8} {pc : Nat} {byte : UInt8} (h : code[pc]? = some byte) :
    code.toList.drop pc = byte :: code.toList.drop (pc + 1) := by
  rw [List.drop_eq_getElem?_toList_append, Array.getElem?_toList, h]
  rfl

/-- The byte at an offset from a position is the one at that offset in what is left. -/
theorem getElem?_of_drop {code : Array UInt8} {pc : Nat} {bytes : List UInt8}
    (h : code.toList.drop pc = bytes) (offset : Nat) : code[pc + offset]? = bytes[offset]? := by
  rw [← h, List.getElem?_drop, Array.getElem?_toList]

/-- A word is read from the four bytes at the front of what is left. -/
theorem wordAt?_of_drop {code : Array UInt8} {pc : Nat} {word : UInt32} {rest : List UInt8}
    (h : code.toList.drop pc = wordBytes word ++ rest) : wordAt? code pc = some word := by
  have bytes := getElem?_of_drop h
  have first : code[pc]? = some word.toUInt8 := bytes 0
  have second : code[pc + 1]? = some (word >>> 8).toUInt8 := bytes 1
  have third : code[pc + 2]? = some (word >>> 16).toUInt8 := bytes 2
  have fourth : code[pc + 3]? = some (word >>> 24).toUInt8 := bytes 3
  simp [wordAt?, first, second, third, fourth, wordOfBytes_wordBytes]

/-- Where a word has been read its bytes are at the front of what is left. -/
theorem drop_of_wordAt? {code : Array UInt8} {pc : Nat} {word : UInt32}
    (h : wordAt? code pc = some word) :
    code.toList.drop pc = wordBytes word ++ code.toList.drop (pc + 4) := by
  unfold wordAt? at h
  obtain ⟨a, ha, h⟩ := Option.bind_eq_some_iff.1 h
  obtain ⟨b, hb, h⟩ := Option.bind_eq_some_iff.1 h
  obtain ⟨c, hc, h⟩ := Option.bind_eq_some_iff.1 h
  obtain ⟨d, hd, h⟩ := Option.bind_eq_some_iff.1 h
  cases h
  rw [wordBytes_wordOfBytes, drop_eq_cons ha, drop_eq_cons hb, drop_eq_cons hc, drop_eq_cons hd]
  rfl

/-- A word cannot be read where fewer than four bytes are left. -/
theorem wordAt?_eq_none_iff {code : Array UInt8} {pc : Nat} :
    wordAt? code pc = none ↔ code.size < pc + 4 := by
  constructor
  · intro h
    refine Nat.lt_of_not_le fun hle => ?_
    have bytes : ∀ offset < 4, ∃ byte, code[pc + offset]? = some byte := fun offset hlt =>
      ⟨_, Array.getElem?_eq_getElem (by omega)⟩
    obtain ⟨a, ha⟩ := bytes 0 (by omega)
    obtain ⟨b, hb⟩ := bytes 1 (by omega)
    obtain ⟨c, hc⟩ := bytes 2 (by omega)
    obtain ⟨d, hd⟩ := bytes 3 (by omega)
    simp only [Nat.add_zero] at ha
    simp [wordAt?, ha, hb, hc, hd] at h
  · intro hlt
    have last : code[pc + 3]? = none := Array.getElem?_eq_none (by omega)
    unfold wordAt?
    rw [last]
    rcases code[pc]? with _ | a
    · rfl
    · rcases code[pc + 1]? with _ | b
      · rfl
      · rcases code[pc + 2]? with _ | c <;> rfl

end Bytecode

/-! ## Opcodes -/

namespace Opcode

/-- A byte that means an instruction on its own is the opcode of that instruction. -/
theorem of_ofByte?_plain {byte : UInt8} {i : Instruction} (h : ofByte? byte = some (.plain i)) :
    i.opcode = byte ∧ i.word? = none := by
  unfold ofByte? at h
  split at h <;> cases h <;> exact ⟨rfl, rfl⟩

/-- A byte that means an instruction with an operand is the opcode of it, whatever the operand. -/
theorem of_ofByte?_withWord {byte : UInt8} {build : UInt32 → Instruction}
    (h : ofByte? byte = some (.withWord build)) (word : UInt32) :
    (build word).opcode = byte ∧ (build word).word? = some word := by
  unfold ofByte? at h
  split at h <;> cases h <;> exact ⟨rfl, rfl⟩

/-- The opcode of an instruction means that instruction. -/
theorem ofByte?_opcode (i : Instruction) : match i.word? with
    | none => ofByte? i.opcode = some (.plain i)
    | some word => ∃ build, ofByte? i.opcode = some (.withWord build) ∧ build word = i := by
  cases i with
  | callSysFunction kind index => rcases kind with _ | _ | _ | _ <;> exact ⟨_, rfl, rfl⟩
  | store kind index | load kind index => cases kind <;> exact ⟨_, rfl, rfl⟩
  | branch | branchGoto | branchIfZero | pushF | pushS | pop => exact ⟨_, rfl, rfl⟩
  | pushI n => exact ⟨_, rfl, congrArg Instruction.pushI (Int32.toInt32_toUInt32 n)⟩
  | binary op flavour => cases op <;> cases flavour <;> rfl
  | negate flavour => cases flavour <;> rfl
  | _ => rfl

/-- A byte means nothing if it is the opcode of no instruction. -/
theorem ofByte?_eq_none_iff {byte : UInt8} :
    ofByte? byte = none ↔ ∀ i : Instruction, i.opcode ≠ byte := by
  constructor
  · rintro h i rfl
    have meaning := ofByte?_opcode i
    rw [h] at meaning
    split at meaning
    · cases meaning
    · obtain ⟨build, hbuild, -⟩ := meaning
      cases hbuild
  · intro h
    cases hbyte : ofByte? byte with
    | none => rfl
    | some meaning =>
      cases meaning with
      | plain i => exact absurd (of_ofByte?_plain hbyte).1 (h i)
      | withWord build => exact absurd (of_ofByte?_withWord hbyte 0).1 (h _)

end Opcode

/-! ## One instruction -/

namespace Instruction

/-- An instruction is as long as its size says. -/
@[simp] theorem length_encode (i : Instruction) : i.encode.length = i.size := by
  unfold encode size
  cases i.word? <;> rfl

/-- No instruction is empty. -/
theorem size_pos (i : Instruction) : 0 < i.size := by
  unfold size
  split <;> omega

/-- An instruction is read from the front of what is left of the code. -/
theorem decode_of_drop {code : Array UInt8} {pc : Nat} {i : Instruction} {rest : List UInt8}
    (h : code.toList.drop pc = i.encode ++ rest) : decode code pc = .ok (i, pc + i.size) := by
  have first : code[pc]? = some i.opcode := Bytecode.getElem?_of_drop h 0
  have meaning := Opcode.ofByte?_opcode i
  unfold decode size
  rw [first]
  cases hword : i.word? with
  | none =>
    simp only [hword] at meaning
    simp [meaning]
  | some word =>
    simp only [hword] at meaning
    obtain ⟨build, hbuild, hi⟩ := meaning
    have operand : code.toList.drop (pc + 1) = Bytecode.wordBytes word ++ rest := by
      rw [encode, hword, Bytecode.drop_eq_cons first] at h
      exact (List.cons.inj h).2
    simp [hbuild, Bytecode.wordAt?_of_drop operand, hi]

/-- Where an instruction has been read its bytes are at the front of what is left. -/
theorem drop_of_decode {code : Array UInt8} {pc next : Nat} {i : Instruction}
    (h : decode code pc = .ok (i, next)) :
    next = pc + i.size ∧ code.toList.drop pc = i.encode ++ code.toList.drop next := by
  unfold decode at h
  cases hbyte : code[pc]? with
  | none =>
    rw [hbyte] at h
    cases h
  | some byte =>
    rw [Bytecode.drop_eq_cons hbyte]
    simp only [hbyte] at h
    cases hmeaning : Opcode.ofByte? byte with
    | none =>
      rw [hmeaning] at h
      cases h
    | some meaning =>
      cases meaning with
      | plain j =>
        rw [hmeaning] at h
        cases h
        obtain ⟨hopcode, hword⟩ := Opcode.of_ofByte?_plain hmeaning
        exact ⟨by simp [size, hword], by simp [encode, hword, hopcode]⟩
      | withWord build =>
        simp only [hmeaning] at h
        cases hword : Bytecode.wordAt? code (pc + 1) with
        | none =>
          rw [hword] at h
          cases h
        | some word =>
          rw [hword] at h
          cases h
          obtain ⟨hopcode, hoperand⟩ := Opcode.of_ofByte?_withWord hmeaning word
          rw [Bytecode.drop_of_wordAt? hword]
          exact ⟨by simp [size, hoperand], by simp [encode, hoperand, hopcode]⟩

/-- What can be read at a position is the instruction whose bytes stand there. -/
theorem decode_eq_ok_iff {code : Array UInt8} {pc next : Nat} {i : Instruction} :
    decode code pc = .ok (i, next) ↔
      next = pc + i.size ∧ next ≤ code.size ∧ (code.extract pc next).toList = i.encode := by
  have front : (code.extract pc (pc + i.size)).toList = (code.toList.drop pc).take i.size := by
    rw [Array.toList_extract, List.extract_eq_take_drop, Nat.add_sub_cancel_left]
  constructor
  · intro h
    obtain ⟨rfl, hdrop⟩ := drop_of_decode h
    have length : code.size - pc = i.size + (code.size - (pc + i.size)) := by
      simpa using congrArg List.length hdrop
    have := i.size_pos
    refine ⟨rfl, by omega, ?_⟩
    rw [front, hdrop, ← length_encode, List.take_left]
  · rintro ⟨rfl, -, h⟩
    have split : code.toList.drop pc = i.encode ++ code.toList.drop (pc + i.size) := by
      rw [← h, front, ← List.drop_drop, List.take_append_drop]
    exact decode_of_drop split

/-- Reading fails at a byte that is the opcode of no instruction, and where the code ends too
early. -/
theorem decode_eq_error_iff {code : Array UInt8} {pc : Nat} {e : ScriptError} :
    decode code pc = .error e ↔
      (e = .truncatedInstruction pc ∧ (code.size ≤ pc ∨
        ∃ i : Instruction, code[pc]? = some i.opcode ∧ i.word?.isSome ∧ code.size < pc + 5)) ∨
      ∃ byte, code[pc]? = some byte ∧ (∀ i : Instruction, i.opcode ≠ byte) ∧
        e = .unknownOpcode pc byte := by
  unfold decode
  cases hbyte : code[pc]? with
  | none =>
    have hsize : code.size ≤ pc := Array.getElem?_eq_none_iff.1 hbyte
    constructor
    · rintro ⟨⟩
      exact .inl ⟨rfl, .inl hsize⟩
    · rintro (⟨rfl, -⟩ | ⟨byte, ⟨⟩, -⟩)
      rfl
  | some byte =>
    have inside : ¬ code.size ≤ pc := Nat.not_le.2 (Array.getElem?_eq_some_iff.1 hbyte).1
    cases hmeaning : Opcode.ofByte? byte with
    | none =>
      have unknown := Opcode.ofByte?_eq_none_iff.1 hmeaning
      simp only [hmeaning]
      constructor
      · rintro ⟨⟩
        exact .inr ⟨byte, rfl, unknown, rfl⟩
      · rintro (⟨-, short | ⟨i, hi, -⟩⟩ | ⟨_, ⟨⟩, -, rfl⟩)
        · exact absurd short inside
        · exact absurd (Option.some.inj hi).symm (unknown i)
        · rfl
    | some meaning =>
      -- The byte is an opcode, so all that can be missing is the operand.
      have known : ¬ ∀ i : Instruction, i.opcode ≠ byte := fun unknown => by
        rw [Opcode.ofByte?_eq_none_iff.2 unknown] at hmeaning
        cases hmeaning
      cases meaning with
      | plain j =>
        simp only [hmeaning]
        constructor
        · rintro ⟨⟩
        · rintro (⟨-, short | ⟨i, hi, hword, -⟩⟩ | ⟨_, ⟨⟩, unknown, -⟩)
          · exact absurd short inside
          · have meaning := Opcode.ofByte?_opcode i
            obtain ⟨word, hword⟩ := Option.isSome_iff_exists.1 hword
            rw [hword, ← Option.some.inj hi, hmeaning] at meaning
            obtain ⟨_, ⟨⟩, -⟩ := meaning
          · exact absurd unknown known
      | withWord build =>
        obtain ⟨hopcode, hword⟩ := Opcode.of_ofByte?_withWord hmeaning 0
        cases hoperand : Bytecode.wordAt? code (pc + 1) with
        | none =>
          have short : code.size < pc + 5 := Bytecode.wordAt?_eq_none_iff.1 hoperand
          simp only [hmeaning]
          constructor
          · rintro ⟨⟩
            exact .inl ⟨rfl, .inr ⟨build 0, by rw [hopcode], by rw [hword]; rfl, short⟩⟩
          · rintro (⟨rfl, -⟩ | ⟨_, ⟨⟩, unknown, -⟩)
            · rfl
            · exact absurd unknown known
        | some word =>
          have complete : ¬ code.size < pc + 5 := fun short => by
            rw [Bytecode.wordAt?_eq_none_iff.2 short] at hoperand
            cases hoperand
          simp only [hmeaning]
          constructor
          · rintro ⟨⟩
          · rintro (⟨-, short | ⟨i, -, -, short⟩⟩ | ⟨_, ⟨⟩, unknown, -⟩)
            · exact absurd short inside
            · exact absurd short complete
            · exact absurd unknown known

end Instruction

/-! ## Many instructions -/

namespace Bytecode

/-- The bytes of instructions, one after the other. -/
def encodeAll (l : List Instruction) : List UInt8 :=
  l.flatMap Instruction.encode

/-- No instructions have no code. -/
@[simp] theorem encodeAll_nil : encodeAll [] = [] :=
  rfl

/-- The code of the first instruction comes first. -/
@[simp] theorem encodeAll_cons (i : Instruction) (l : List Instruction) :
    encodeAll (i :: l) = i.encode ++ encodeAll l :=
  List.flatMap_cons

/-- What follows the bytes of an instruction. -/
theorem drop_add_size {code : List UInt8} {pc : Nat} {i : Instruction} {rest : List UInt8}
    (h : code.drop pc = i.encode ++ rest) : code.drop (pc + i.size) = rest := by
  rw [← List.drop_drop, h, ← Instruction.length_encode, List.drop_left]

/-- Reads a number of instructions, one after the other; the answer is what they are and where they
stop. -/
def decodeMany (code : Array UInt8) : Nat → Nat → Except ScriptError (List Instruction × Nat)
  | 0, pc => .ok ([], pc)
  | n + 1, pc => do
    let (i, next) ← Instruction.decode code pc
    let (rest, stop) ← decodeMany code n next
    return (i :: rest, stop)

/-- Instructions are read from the front of what is left of the code. -/
theorem decodeMany_of_drop {code : Array UInt8} {pc : Nat} {l : List Instruction}
    {rest : List UInt8} (h : code.toList.drop pc = encodeAll l ++ rest) :
    decodeMany code l.length pc = .ok (l, pc + (encodeAll l).length) := by
  induction l generalizing pc with
  | nil => rfl
  | cons i l ih =>
    rw [encodeAll_cons, List.append_assoc] at h
    rw [List.length_cons, decodeMany, Instruction.decode_of_drop h]
    change (decodeMany code l.length (pc + i.size) >>= fun r => pure (i :: r.1, r.2)) = _
    rw [ih (drop_add_size h), encodeAll_cons, List.length_append, Instruction.length_encode,
      ← Nat.add_assoc]
    rfl

end Bytecode

/-- Instructions that are written one after the other are read back one by one wherever they stand,
up to exactly where they end. What is read at a position are the bytes there of one instruction, all
of them within the code. Reading fails exactly where the byte is the opcode of no instruction, where
there is no byte, and where an operand is wanted of which fewer than four bytes are left. -/
theorem bytecode_is_exact_code :
    (∀ (l : List Instruction) (before after : Array UInt8),
      Bytecode.decodeMany (before ++ Bytecode.encodeAll l ++ after) l.length before.size
        = .ok (l, before.size + (Bytecode.encodeAll l).length)) ∧
    (∀ (code : Array UInt8) (pc next : Nat) (i : Instruction),
      Instruction.decode code pc = .ok (i, next) ↔
        next = pc + i.size ∧ next ≤ code.size ∧ (code.extract pc next).toList = i.encode) ∧
    ∀ (code : Array UInt8) (pc : Nat) (e : ScriptError),
      Instruction.decode code pc = .error e ↔
        (e = .truncatedInstruction pc ∧ (code.size ≤ pc ∨
          ∃ i : Instruction, code[pc]? = some i.opcode ∧ i.word?.isSome ∧ code.size < pc + 5)) ∨
        ∃ byte, code[pc]? = some byte ∧ (∀ i : Instruction, i.opcode ≠ byte) ∧
          e = .unknownOpcode pc byte := by
  refine ⟨fun l before after => ?_, fun _ _ _ _ => Instruction.decode_eq_ok_iff,
    fun _ _ _ => Instruction.decode_eq_error_iff⟩
  have split : (before ++ Bytecode.encodeAll l ++ after).toList.drop before.size
      = Bytecode.encodeAll l ++ after.toList := by simp
  exact Bytecode.decodeMany_of_drop split

end SheepScene
