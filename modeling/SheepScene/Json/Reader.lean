import SheepScene.Json.Basic

/-!
# Reading JSON

The text is cut into tokens, and the tokens are folded into a value with the open arrays and
objects on a stack, so that nesting may be as deep as the text is long. The grammar is strict:
nothing but blanks around the value, no comma before a bracket, and no control characters in
strings. A string in which surrogates stand alone is kept as unreadable.
-/

set_option autoImplicit false

namespace SheepScene.Json

/-- A lexical element. -/
inductive Token where
  | openArray
  | closeArray
  | openObject
  | closeObject
  | colon
  | comma
  /-- A string, and its text if it has one. -/
  | string (text : Option String)
  /-- A value without parts other than a string. -/
  | atom (value : Json)

/-- The value of a hexadecimal digit. -/
def hexDigit? (c : Char) : Option Nat :=
  if c.isDigit then some (c.toNat - '0'.toNat)
  else if 'a' ≤ c ∧ c ≤ 'f' then some (c.toNat - 'a'.toNat + 10)
  else if 'A' ≤ c ∧ c ≤ 'F' then some (c.toNat - 'A'.toNat + 10)
  else none

/-- The number of four hexadecimal digits. -/
def hexWord? (a b c d : Char) : Option Nat := do
  return ((← hexDigit? a) * 16 + (← hexDigit? b)) * 256 + ((← hexDigit? c) * 16 + (← hexDigit? d))

/-- The character behind a backslash. -/
def shortEscape? : Char → Option Char
  | '"' => some '"'
  | '\\' => some '\\'
  | '/' => some '/'
  | 'b' => some '\x08'
  | 'f' => some '\x0c'
  | 'n' => some '\n'
  | 'r' => some '\r'
  | 't' => some '\t'
  | _ => none

/-- Whether a code unit is the first half of a pair. -/
def isHighSurrogate (n : Nat) : Bool :=
  0xD800 ≤ n && n < 0xDC00

/-- Whether a code unit is the second half of a pair. -/
def isLowSurrogate (n : Nat) : Bool :=
  0xDC00 ≤ n && n < 0xE000

/-- A piece of a string: a character, or a 16-bit unit that was written by number. -/
inductive Piece where
  | char (c : Char)
  | unit (n : Nat)

/-- The pieces of a string up to its closing quote, and the rest. -/
def scanString : List Char → Option (List Piece × List Char)
  | [] => none
  | '"' :: rest => some ([], rest)
  | '\\' :: 'u' :: a :: b :: c :: d :: rest =>
    match hexWord? a b c d with
    | none => none
    | some n => (scanString rest).map fun found => (.unit n :: found.1, found.2)
  | '\\' :: c :: rest =>
    match shortEscape? c with
    | none => none
    | some c => (scanString rest).map fun found => (.char c :: found.1, found.2)
  | c :: rest =>
    if c.toNat < 0x20 ∨ c = '\\' then none
    else (scanString rest).map fun found => (.char c :: found.1, found.2)

/-- The characters of some pieces. The two halves of a pair make one character, and neither of them
may stand alone. -/
def joined? : List Piece → Option (List Char)
  | [] => some []
  | .char c :: rest => (joined? rest).map (c :: ·)
  | .unit n :: rest =>
    if isLowSurrogate n then none
    else if isHighSurrogate n then
      match rest with
      | .unit low :: rest =>
        if isLowSurrogate low then
          (joined? rest).map (Char.ofNat ((n - 0xD800) * 1024 + (low - 0xDC00) + 0x10000) :: ·)
        else none
      | _ => none
    else (joined? rest).map (Char.ofNat n :: ·)

/-- Whether a character occurs in numerals. -/
def isNumeralChar (c : Char) : Bool :=
  c.isDigit || c = '-' || c = '+' || c = '.' || c = 'e' || c = 'E'

/-- The numeral at the head of a text, as it is written, and the rest. No numeral can be followed by
a character that occurs in numerals. -/
def scanNumber (s : List Char) : Option (List Char × List Char) :=
  match Numeral.scan (s.takeWhile isNumeralChar) with
  | some (_, []) => some (s.takeWhile isNumeralChar, s.dropWhile isNumeralChar)
  | _ => none

/-- The token at the head of a text that starts with no blank, and the rest. -/
def scanToken : List Char → Option (Token × List Char)
  | '[' :: rest => some (.openArray, rest)
  | ']' :: rest => some (.closeArray, rest)
  | '\x7b' :: rest => some (.openObject, rest)
  | '\x7d' :: rest => some (.closeObject, rest)
  | ':' :: rest => some (.colon, rest)
  | ',' :: rest => some (.comma, rest)
  | 'n' :: 'u' :: 'l' :: 'l' :: rest => some (.atom .null, rest)
  | 't' :: 'r' :: 'u' :: 'e' :: rest => some (.atom (.bool true), rest)
  | 'f' :: 'a' :: 'l' :: 's' :: 'e' :: rest => some (.atom (.bool false), rest)
  | '"' :: rest => (scanString rest).map fun found =>
      (.string ((joined? found.1).map String.ofList), found.2)
  | s => (scanNumber s).map fun found => (.atom (.number (String.ofList found.1)), found.2)

/-- Reading a string uses up characters. -/
theorem length_lt_of_scanString {s : List Char} {found : List Piece × List Char}
    (h : scanString s = some found) : found.2.length < s.length := by
  fun_induction scanString s generalizing found with
  | case1 | case3 | case5 | case7 => cases h
  | case2 rest =>
    obtain rfl := Option.some.inj h
    exact Nat.lt_succ_self rest.length
  | case4 | case6 | case8 =>
    rename_i ih
    obtain ⟨_, scanned, rfl⟩ := Option.map_eq_some_iff.1 h
    have := ih scanned
    simp only [List.length_cons] at this ⊢
    omega

/-- Reading a numeral uses up characters. -/
theorem length_lt_of_scanNumber {s : List Char} {found : List Char × List Char}
    (h : scanNumber s = some found) : found.2.length < s.length := by
  have split := congrArg List.length (List.takeWhile_append_dropWhile (p := isNumeralChar) (l := s))
  rw [List.length_append] at split
  unfold scanNumber at h
  split at h
  · rename_i scanned
    obtain rfl := Option.some.inj h
    have : s.takeWhile isNumeralChar ≠ [] := by
      intro empty
      rw [empty] at scanned
      cases scanned
    have := List.length_pos_iff.2 this
    simp only
    omega
  · cases h

/-- Reading a token uses up characters. -/
theorem length_lt_of_scanToken {s : List Char} {found : Token × List Char}
    (h : scanToken s = some found) : found.2.length < s.length := by
  revert h
  fun_cases scanToken s with
  | case10 =>
    intro h
    obtain ⟨_, scanned, rfl⟩ := Option.map_eq_some_iff.1 h
    exact Nat.lt_succ_of_lt (length_lt_of_scanString scanned)
  | case11 =>
    intro h
    obtain ⟨_, scanned, rfl⟩ := Option.map_eq_some_iff.1 h
    exact length_lt_of_scanNumber scanned
  | _ =>
    intro h
    obtain rfl := Option.some.inj h
    simp only [List.length_cons]
    omega

/-- Whether a character may stand between tokens. -/
def isBlank (c : Char) : Bool :=
  c = ' ' || c = '\t' || c = '\n' || c = '\r'

/-- The tokens of a text. -/
def tokens (s : List Char) : Option (List Token) :=
  match s with
  | [] => some []
  | c :: rest =>
    if isBlank c then tokens rest
    else match _h : scanToken (c :: rest) with
      | none => none
      | some (token, after) => (tokens after).map (token :: ·)
termination_by s.length
decreasing_by
  · exact Nat.lt_succ_self rest.length
  · exact length_lt_of_scanToken (by assumption)

/-- An array or object that is still open, with what it holds so far in reverse. -/
inductive Frame where
  | array (items : List Json)
  | object (fields : List (Option String × Json)) (key : Option String)

/-- What may come next. -/
inductive Expecting where
  | value
  /-- A value, or the end of the array that has just been opened. -/
  | firstItem
  /-- A key, or the end of the object that has just been opened. -/
  | firstKey (outer : List Frame)
  | key (fields : List (Option String × Json)) (outer : List Frame)
  | colon (fields : List (Option String × Json)) (key : Option String) (outer : List Frame)
  /-- A comma or the end of the innermost open value. -/
  | separator
  | nothing (value : Json)

/-- A value that is being read: what may come next, and the open arrays and objects around it. -/
structure Reading where
  expecting : Expecting
  frames : List Frame

namespace Reading

/-- Puts a complete value into the innermost open one. -/
def close (value : Json) : List Frame → Reading
  | [] => ⟨.nothing value, []⟩
  | .array items :: outer => ⟨.separator, .array (value :: items) :: outer⟩
  | .object fields key :: outer => ⟨.separator, .object ((key, value) :: fields) key :: outer⟩

/-- A token where a value may start. -/
def startValue (frames : List Frame) : Token → Option Reading
  | .atom value => some (close value frames)
  | .string text => some (close (.ofText text) frames)
  | .openArray => some ⟨.firstItem, .array [] :: frames⟩
  | .openObject => some ⟨.firstKey frames, []⟩
  | _ => none

/-- Takes one more token. -/
def step (r : Reading) (token : Token) : Option Reading :=
  match r.expecting, r.frames, token with
  | .value, frames, _ => startValue frames token
  | .firstItem, .array _ :: outer, .closeArray => some (close (.array []) outer)
  | .firstItem, frames, _ => startValue frames token
  | .firstKey outer, _, .closeObject => some (close (.object []) outer)
  | .firstKey outer, _, .string key => some ⟨.colon [] key outer, []⟩
  | .key fields outer, _, .string key => some ⟨.colon fields key outer, []⟩
  | .colon fields key outer, _, .colon => some ⟨.value, .object fields key :: outer⟩
  | .separator, .array items :: outer, .comma => some ⟨.value, .array items :: outer⟩
  | .separator, .array items :: outer, .closeArray =>
    some (close (.array items.reverse) outer)
  | .separator, .object fields _ :: outer, .comma => some ⟨.key fields outer, []⟩
  | .separator, .object fields _ :: outer, .closeObject =>
    some (close (.ofFields fields.reverse) outer)
  | _, _, _ => none

end Reading

/-- The value that a text stands for. -/
def parse? (text : String) : Option Json := do
  let read ← (← tokens text.toList).foldlM Reading.step ⟨.value, []⟩
  match read.expecting with
  | .nothing value => some value
  | _ => none

end SheepScene.Json
