import Mathlib.Data.Char
import Mathlib.Tactic.SplitIfs
import SheepScene.Proofs.Machine.Division

/-!
# Comparisons

The six comparisons on integers, and those on strings in either form and either flavour, leave a
truth value and come from one order (`comparisons_form_one_order`). Integers are ordered as numbers.
Strings are ordered by the bytes of their texts with A to Z made small
(`compareFolded_eq_bytes`), and two of them are equal exactly if their texts are the same name.
-/

set_option autoImplicit false

namespace SheepScene

/-! ## Texts as bytes -/

namespace Text

/-- A byte with A to Z made small. -/
def foldedByte (b : UInt8) : UInt8 :=
  if 0x41 ≤ b ∧ b ≤ 0x5A then b + 0x20 else b

/-- The bytes of a text with A to Z made small. -/
def foldedBytes (s : String) : List UInt8 :=
  s.toUTF8.data.toList.map foldedByte

/-- Lower case moves the capital letters and nothing else. -/
theorem toNat_toLower (c : Char) :
    c.toLower.toNat = if 65 ≤ c.toNat ∧ c.toNat ≤ 90 then c.toNat + 32 else c.toNat := by
  have capital : (c.val ≥ 'A'.val ∧ c.val ≤ 'Z'.val) ↔ (65 ≤ c.toNat ∧ c.toNat ≤ 90) := by
    rw [ge_iff_le, UInt32.le_iff_toNat_le, UInt32.le_iff_toNat_le]
    rfl
  unfold Char.toLower
  by_cases h : c.val ≥ 'A'.val ∧ c.val ≤ 'Z'.val
  · have bound := (capital.1 h).2
    rw [dif_pos h, if_pos (capital.1 h)]
    change (c.toNat + 32) % 2 ^ 32 = c.toNat + 32
    omega
  · rw [dif_neg h, if_neg (mt capital.2 h)]

/-- The bytes of a folded character are its bytes folded: A to Z are bytes of their own, and a
character of several bytes has none among them. -/
theorem map_foldedByte_encode (c : Char) :
    (String.utf8EncodeChar c).map foldedByte = String.utf8EncodeChar c.toLower := by
  have folds := toNat_toLower c
  have value : ∀ d : Char, d.val.toNat = d.toNat := fun _ => rfl
  simp only [String.utf8EncodeChar, value]
  split_ifs at folds ⊢ <;> try omega
  all_goals
    simp only [List.map_cons, List.map_nil, folds, foldedByte, UInt8.le_iff_toNat_le,
      UInt8.toNat_ofNat', UInt8.reduceToNat, List.cons.injEq, ite_eq_right_iff, and_true]
  · rw [if_pos (by omega), UInt8.ofNat_add]
    rfl
  all_goals omega

/-- The bytes of a folded text are those of its folded characters. -/
theorem foldedBytes_eq (s : String) :
    foldedBytes s = (folded s).flatMap String.utf8EncodeChar := by
  rw [foldedBytes, String.toUTF8_eq_toByteArray, ← String.utf8Encode_toList, List.utf8Encode,
    List.toList_data_toByteArray, List.map_flatMap, folded, List.flatMap_map]
  simp only [map_foldedByte_encode]

/-- A smaller number has the smaller digit to the base 64 where the two first differ. -/
theorem digits_lt {n m : Nat} (h : n < m) :
    n / 262144 < m / 262144 ∨ n / 262144 = m / 262144 ∧
      (n / 4096 % 64 < m / 4096 % 64 ∨ n / 4096 % 64 = m / 4096 % 64 ∧
        (n / 64 % 64 < m / 64 % 64 ∨ n / 64 % 64 = m / 64 % 64 ∧ n % 64 < m % 64)) := by
  rcases (show n / 64 < m / 64 ∨ n / 64 = m / 64 ∧ n % 64 < m % 64 by omega) with h | ⟨e, h⟩
  · rcases (show n / 4096 < m / 4096 ∨ n / 4096 = m / 4096 ∧ n / 64 % 64 < m / 64 % 64 by omega)
      with h | ⟨e, h⟩ <;> omega
  · omega

/-- The bytes of a smaller character come first, whatever stands behind them: of two characters
with equally many bytes the digits decide, and otherwise the first byte. -/
theorem compareLex_encode_lt {c d : Char} (h : c < d) (x y : List UInt8) :
    List.compareLex compare (String.utf8EncodeChar c ++ x) (String.utf8EncodeChar d ++ y)
      = .lt := by
  have value : ∀ c : Char, c.val.toNat = c.toNat := fun _ => rfl
  have less : c.toNat < d.toNat := h
  have bound : d.toNat < 0x110000 := d.valid.elim (fun h => h.trans (by decide)) (·.2)
  have digits := digits_lt less
  have tail : ∀ n, (n % 64 + 128) % 2 ^ 8 = n % 64 + 128 := fun n => by omega
  have lead : ∀ n < 0x110000, (n / 262144 % 8 + 240) % 2 ^ 8 = n / 262144 + 240 :=
    fun n _ => by omega
  simp only [String.utf8EncodeChar, value]
  split_ifs <;> try omega
  all_goals
    simp only [List.cons_append, List.nil_append, List.compareLex_cons_cons, Ordering.then_eq_lt,
      Std.compare_eq_lt, UInt8.lt_iff_toNat_lt, UInt8.toNat_ofNat',
      Std.LawfulEqOrd.compare_eq_iff_eq, ← UInt8.toNat_inj, tail, lead _ bound,
      lead _ (less.trans bound)]
    omega

/-- Lists that begin alike compare as what follows. -/
theorem compareLex_append_left (l x y : List UInt8) :
    List.compareLex compare (l ++ x) (l ++ y) = List.compareLex compare x y := by
  induction l with
  | nil => rfl
  | cons b l ih =>
    rw [List.cons_append, List.cons_append, List.compareLex_cons_cons, Std.ReflOrd.compare_self]
    exact ih

/-- Every character has at least one byte. -/
theorem exists_encode_eq_cons (c : Char) : ∃ b l, String.utf8EncodeChar c = b :: l := by
  unfold String.utf8EncodeChar
  dsimp only
  split_ifs <;> exact ⟨_, _, rfl⟩

/-- Characters are ordered by code point as their bytes are. -/
theorem compareLex_flatMap_encode (l m : List Char) :
    List.compareLex compare (l.flatMap String.utf8EncodeChar) (m.flatMap String.utf8EncodeChar)
      = List.compareLex compare l m := by
  induction l generalizing m with
  | nil =>
    cases m with
    | nil => rfl
    | cons d m =>
      obtain ⟨b, rest, h⟩ := exists_encode_eq_cons d
      rw [List.flatMap_cons, h]
      rfl
  | cons c l ih =>
    cases m with
    | nil =>
      obtain ⟨b, rest, h⟩ := exists_encode_eq_cons c
      rw [List.flatMap_cons, h]
      rfl
    | cons d m =>
      rw [List.flatMap_cons, List.flatMap_cons, List.compareLex_cons_cons]
      rcases lt_trichotomy c d with h | rfl | h
      · rw [compareLex_encode_lt h, compare_lt_iff_lt.2 h]
        rfl
      · rw [compareLex_append_left, ih, Std.ReflOrd.compare_self]
        rfl
      · rw [@Std.OrientedCmp.eq_swap _ (List.compareLex compare), compareLex_encode_lt h,
          compare_gt_iff_gt.2 h]
        rfl

/-- Texts are ordered as their bytes with A to Z made small. -/
theorem compareFolded_eq_bytes (a b : String) :
    compareFolded a b = List.compareLex compare (foldedBytes a) (foldedBytes b) := by
  rw [foldedBytes_eq, foldedBytes_eq, compareLex_flatMap_encode]
  rfl

instance : Std.TransCmp compareFolded :=
  inferInstanceAs (Std.TransCmp (compareOn folded))

/-- Texts that stand at the same place of the order are the same name. -/
theorem compareFolded_eq_eq_iff {a b : String} : compareFolded a b = .eq ↔ sameName a b = true := by
  rw [compareFolded, Std.LawfulEqCmp.compare_eq_iff_eq, sameName, beq_iff_eq]

end Text

/-! ## One order -/

/-- Comparisons of some values that come from one total preorder. -/
structure OneOrder (on : Value → Prop) (tells : BinaryOp → Value → Value → Bool) : Prop where
  /-- Exactly one of less, equal and greater holds. -/
  one : ∀ {a b}, on a → on b →
    [BinaryOp.isLess, BinaryOp.isEqual, BinaryOp.isGreater].countP (tells · a b) = 1
  lessEqual : ∀ {a b}, on a → on b → tells .isLessEqual a b = !tells .isGreater a b
  greaterEqual : ∀ {a b}, on a → on b → tells .isGreaterEqual a b = !tells .isLess a b
  notEqual : ∀ {a b}, on a → on b → tells .notEqual a b = !tells .isEqual a b
  less_trans : ∀ {a b c}, on a → on b → on c →
    tells .isLess a b = true → tells .isLess b c = true → tells .isLess a c = true
  lessEqual_trans : ∀ {a b c}, on a → on b → on c →
    tells .isLessEqual a b = true → tells .isLessEqual b c = true → tells .isLessEqual a c = true
  lessEqual_total : ∀ {a b}, on a → on b →
    tells .isLessEqual a b = true ∨ tells .isLessEqual b a = true
  /-- Operands the other way round exchange less and greater. -/
  swap : ∀ {a b}, on a → on b →
    tells .isGreater b a = tells .isLess a b ∧ tells .isLess b a = tells .isGreater a b
  /-- Equal values can stand for each other on either side of every comparison. -/
  interchange : ∀ {a b c}, on a → on b → on c → tells .isEqual a b = true → ∀ op,
    tells op a c = tells op b c ∧ tells op c a = tells op c b

/-- Comparisons that go by an order of what the values are read as come from one order. -/
theorem OneOrder.of_reads {α : Type} {reads : Value → Option α} (order : α → α → Ordering)
    [Std.TransCmp order] {tells : BinaryOp → Value → Value → Bool}
    (h : ∀ {a b x y}, reads a = some x → reads b = some y → ∀ op,
      tells op a b = op.holds (some (order x y))) :
    OneOrder (fun v => (reads v).isSome) tells := by
  have read : ∀ {a b}, (reads a).isSome → (reads b).isSome →
      ∃ x y, reads a = some x ∧ reads b = some y ∧
        (∀ op, tells op a b = op.holds (some (order x y))) ∧
        ∀ op, tells op b a = op.holds (some (order x y).swap) := fun ha hb => by
    obtain ⟨x, hx⟩ := Option.isSome_iff_exists.1 ha
    obtain ⟨y, hy⟩ := Option.isSome_iff_exists.1 hb
    exact ⟨x, y, hx, hy, h hx hy, fun op => by rw [h hy hx, @Std.OrientedCmp.eq_swap _ order]⟩
  -- At most: less or equal, in terms of the order.
  have atMost : ∀ {o : Ordering}, BinaryOp.holds .isLessEqual (some o) = true ↔ o.isLE := by
    rintro (_ | _ | _) <;> decide
  constructor
  case one =>
    intro a b ha hb
    obtain ⟨x, y, -, -, hab, -⟩ := read ha hb
    simp only [List.countP_cons, List.countP_nil, hab]
    cases order x y <;> rfl
  case lessEqual | greaterEqual | notEqual =>
    intro a b ha hb
    obtain ⟨x, y, -, -, hab, -⟩ := read ha hb
    simp only [hab]
    cases order x y <;> rfl
  case swap =>
    intro a b ha hb
    obtain ⟨x, y, -, -, hab, hba⟩ := read ha hb
    simp only [hab, hba]
    cases order x y <;> exact ⟨rfl, rfl⟩
  case lessEqual_total =>
    intro a b ha hb
    obtain ⟨x, y, -, -, hab, hba⟩ := read ha hb
    simp only [hab, hba]
    cases order x y <;> decide
  case less_trans =>
    intro a b c ha hb hc hab hbc
    obtain ⟨x, hx⟩ := Option.isSome_iff_exists.1 ha
    obtain ⟨y, hy⟩ := Option.isSome_iff_exists.1 hb
    obtain ⟨z, hz⟩ := Option.isSome_iff_exists.1 hc
    simp only [h hx hy, h hy hz, h hx hz, BinaryOp.holds, beq_iff_eq, Option.some.injEq] at *
    exact Std.TransCmp.lt_trans hab hbc
  case lessEqual_trans =>
    intro a b c ha hb hc hab hbc
    obtain ⟨x, hx⟩ := Option.isSome_iff_exists.1 ha
    obtain ⟨y, hy⟩ := Option.isSome_iff_exists.1 hb
    obtain ⟨z, hz⟩ := Option.isSome_iff_exists.1 hc
    rw [h hx hy, atMost] at hab
    rw [h hy hz, atMost] at hbc
    rw [h hx hz, atMost]
    exact Std.TransCmp.isLE_trans hab hbc
  case interchange =>
    intro a b c ha hb hc hab op
    obtain ⟨x, hx⟩ := Option.isSome_iff_exists.1 ha
    obtain ⟨y, hy⟩ := Option.isSome_iff_exists.1 hb
    obtain ⟨z, hz⟩ := Option.isSome_iff_exists.1 hc
    have equal : order x y = .eq := by simpa [h hx hy, BinaryOp.holds] using hab
    rw [h hx hz, h hy hz, h hz hx, h hz hy, Std.TransCmp.congr_left equal,
      Std.TransCmp.congr_right equal]
    exact ⟨rfl, rfl⟩

/-! ## The comparisons of the machine -/

/-- The order of two integers, or of the texts of two strings; `none` for other values and for
offsets outside the table. -/
def Value.order? (table : Array String) (a b : Value) : Option Ordering :=
  match a, b with
  | .int x, .int y => some (compare x.toInt y.toInt)
  | _, _ => match a.resolve? table, b.resolve? table with
    | some s, some t => some (Text.compareFolded s t)
    | _, _ => none

/-- What a comparison orders: integers in the flavour of integers, and strings that have a text in
either flavour. -/
inductive Comparable (table : Array String) : Numeric → Value → Value → Prop
  | ints (x y : Int32) : Comparable table .int (.int x) (.int y)
  | texts {a b : Value} (flavour : Numeric) (left : (a.resolve? table).isSome)
    (right : (b.resolve? table).isSome) : Comparable table flavour a b

namespace Value

variable {table : Array String} {a b : Value}

/-- Integers compare by their values. -/
theorem order?_of_ints {x y : Int32} (ha : a.asInt? = some x) (hb : b.asInt? = some y) :
    order? table a b = some (compare x.toInt y.toInt) := by
  cases a <;> cases b <;> cases ha <;> cases hb
  rfl

/-- Texts compare without regard to case. -/
theorem order?_of_texts {s t : String} (ha : a.resolve? table = some s)
    (hb : b.resolve? table = some t) : order? table a b = some (Text.compareFolded s t) := by
  cases a <;> cases b <;> simp_all [order?, resolve?]

/-- A value that stands for a text is taken as that text. -/
theorem toText_of_resolve? {s : String} (h : a.resolve? table = some s) (pc : Nat) :
    a.toText table pc = .ok s := by
  cases a <;> simp_all [resolve?, toText]

/-- A value that stands for a text is of the kind of texts. -/
theorem isString_of_resolve? {s : String} (h : a.resolve? table = some s) : a.isString = true := by
  cases a <;> first | rfl | cases h

end Value

/-- A comparison of values that it orders answers with what it tells of their order. -/
theorem BinaryOp.apply_of_comparable {op : BinaryOp} {flavour : Numeric} {table : Array String}
    {a b : Value} (hop : op.isComparison = true) (h : Comparable table flavour a b) (pc : Nat) :
    op.apply flavour table pc a b
      = .ok (.int (if op.holds (a.order? table b) then 1 else 0)) := by
  cases h with
  | ints x y =>
    cases op <;> first | rfl | cases hop
  | texts flavour left right =>
    obtain ⟨s, hs⟩ := Option.isSome_iff_exists.1 left
    obtain ⟨t, ht⟩ := Option.isSome_iff_exists.1 right
    have asStrings : op.apply flavour table pc a b = op.onStrings table pc a b := by
      cases a <;> cases b <;> first | rfl | cases hs
    have notAdd : op ≠ .add := by
      rintro rfl
      cases hop
    rw [asStrings, onStrings, if_neg notAdd, hop, Value.isString_of_resolve? hs,
      Value.isString_of_resolve? ht, Value.toText_of_resolve? hs, Value.toText_of_resolve? ht,
      Value.order?_of_texts hs ht]
    rfl

/-- The comparisons form one order. On integers in the flavour of integers, and on strings with a
text, in either form and either flavour, each of the six goes on and leaves 0 or 1 in place of its
operands. What it leaves depends on the operands alone, and comes from one order of the integers,
which is theirs as numbers, and from one order of the strings, which is that of the bytes of their
texts with A to Z made small; strings are equal exactly if their texts are the same name. -/
theorem comparisons_form_one_order (strings : Array String) :
    ∃ tells : BinaryOp → Value → Value → Bool,
      (∀ {W Body : Type} (host : Host W Body) (table : HostTable Body) {t : Thread} {next : Nat}
        {below : List Value} {a b : Value} {op : BinaryOp} {flavour : Numeric} (w : W),
        t.script.strings = strings →
        Instruction.decode t.script.bytecode t.pc = .ok (.binary op flavour, next) →
        op.isComparison = true → t.stack.toList = below ++ [a, b] →
        Comparable strings flavour a b →
        ∃ t', t.step host table w = .ok (t', .ok .proceed) w ∧
          t'.stack.toList = below ++ [.int (if tells op a b then 1 else 0)]) ∧
      OneOrder (fun v => v.asInt?.isSome) tells ∧
      OneOrder (fun v => (v.resolve? strings).isSome) tells ∧
      (∀ x y : Int32, tells .isLess (.int x) (.int y) = decide (x < y) ∧
        tells .isEqual (.int x) (.int y) = decide (x = y)) ∧
      ∀ {a b : Value} {s t : String}, a.resolve? strings = some s → b.resolve? strings = some t →
        tells .isLess a b
            = (List.compareLex compare (Text.foldedBytes s) (Text.foldedBytes t) == .lt) ∧
          tells .isEqual a b = Text.sameName s t := by
  refine ⟨fun op a b => op.holds (a.order? strings b), ?_, ?_, ?_, ?_, ?_⟩
  · rintro W Body host table t next below a b op flavour w rfl hdec hop htop comparable
    have delivers := Thread.delivers_binary host table hdec htop w
    rwa [BinaryOp.apply_of_comparable hop comparable] at delivers
  · refine OneOrder.of_reads (compareOn Int32.toInt) fun ha hb op => ?_
    rw [Value.order?_of_ints ha hb]
    rfl
  · refine OneOrder.of_reads Text.compareFolded fun ha hb op => ?_
    rw [Value.order?_of_texts ha hb]
  · intro x y
    constructor <;> rw [Bool.eq_iff_iff] <;>
      simp only [Value.order?, BinaryOp.holds, beq_iff_eq, decide_eq_true_iff, Option.some.injEq,
        compare_lt_iff_lt, compare_eq_iff_eq, Int32.lt_iff_toInt_lt, Int32.toInt_inj]
  · intro a b s t ha hb
    simp only [Value.order?_of_texts ha hb, BinaryOp.holds]
    constructor <;> rw [Bool.eq_iff_iff, beq_iff_eq, Option.some.injEq]
    · rw [Text.compareFolded_eq_bytes, beq_iff_eq]
    · exact Text.compareFolded_eq_eq_iff

/-- Two values have room on a stack. -/
theorem size_pair_le (a b : Value) : #[a, b].size ≤ stackCapacity :=
  Nat.le_add_left 2 1022

/-- A thread in front of the only instruction of its script, with two values on its stack. -/
def comparator (strings : Array String) (opcode : UInt8) (a b : Value) : Thread :=
  { calculator opcode (.ofNat 0) (.ofNat 0) with
    script := { Script.blank "comparator" with bytecode := #[opcode], strings := strings }
    stack := ⟨#[a, b], size_pair_le a b⟩ }

/-- An entry of the table and a text of its own in other letters are equal, in the flavour of floats
too, and an entry comes before what it is the beginning of. -/
theorem comparisons_form_one_order_mixed :
    (∃ t', (comparator #["Red", "redden"] 0x22 (.offset 0) (.string "RED")).step bareHost .empty ()
        = .ok (t', .ok .proceed) () ∧ t'.stack.toList = [.int 1]) ∧
    ∃ t', (comparator #["Red", "redden"] 0x27 (.offset 0) (.offset 1)).step bareHost .empty ()
        = .ok (t', .ok .proceed) () ∧ t'.stack.toList = [.int 1] := by
  obtain ⟨tells, steps, -, -, -, texts⟩ := comparisons_form_one_order #["Red", "redden"]
  have equal : tells .isEqual (.offset 0) (.string "RED") = true :=
    (texts rfl rfl).2.trans (by decide)
  have less : tells .isLess (.offset 0) (.offset 1) = true :=
    (texts rfl rfl).1.trans (by decide)
  constructor
  · have ran := steps bareHost .empty
      (t := comparator #["Red", "redden"] 0x22 (.offset 0) (.string "RED")) ()
      rfl rfl rfl (rfl : _ = [] ++ _) (.texts .float rfl rfl)
    rwa [equal] at ran
  · have ran := steps bareHost .empty
      (t := comparator #["Red", "redden"] 0x27 (.offset 0) (.offset 1)) ()
      rfl rfl rfl (rfl : _ = [] ++ _) (.texts .int rfl rfl)
    rwa [less] at ran

end SheepScene
