import SheepScene.Json.Writer
import SheepScene.Proofs.Json.Numerals

/-!
# What is written as JSON can be read

A value whose numbers are numerals and whose strings are texts (`Plain`) is read back from its
indented text exactly as it was, the order and the repetitions of its fields included
(`parse?_pretty`). The text is compared with the list of its tokens: `tokens` cuts the text into
`lexemes`, wherever the text stands (`Cuts`), and the tokens are folded into the value, whatever is
still open around it (`Reads`).
-/

set_option autoImplicit false

namespace SheepScene.Json

/-- A value that can be written and read: its numbers are numerals and its strings are texts. -/
inductive Plain : Json → Prop
  | null : Plain .null
  | bool (b : Bool) : Plain (.bool b)
  | number {literal : String} (h : (Numeral.ofString? literal).isSome) : Plain (.number literal)
  | string (text : String) : Plain (.string text)
  | array {items : List Json} (h : ∀ item ∈ items, Plain item) : Plain (.array items)
  | object {fields : List (String × Json)} (h : ∀ field ∈ fields, Plain field.2) :
    Plain (.object fields)

/-! ## Strings -/

/-- A control character has four digits, which are read as its number. -/
theorem hexWord?_hexDigits : ∀ n < 0x20,
    (match Text.hexDigits 4 n with
      | [a, b, c, d] => hexWord? a b c d
      | _ => none) = some n := by
  decide

/-- A unit that is no half of a pair is a character. -/
theorem joined?_unit {n : Nat} (small : n < 0xD800) (pieces : List Piece) :
    joined? (.unit n :: pieces) = (joined? pieces).map (Char.ofNat n :: ·) := by
  have low : isLowSurrogate n = false := by simp [isLowSurrogate]; omega
  have high : isHighSurrogate n = false := by simp [isHighSurrogate]; omega
  rw [joined?.eq_def]
  simp [low, high]

/-- A character is read from what it is escaped to, whatever follows it. -/
theorem scanString_escapeChar (c : Char) (s : List Char) :
    ∃ piece, scanString (escapeChar c ++ s) =
        (scanString s).map (fun found => (piece :: found.1, found.2)) ∧
      ∀ pieces, joined? (piece :: pieces) = (joined? pieces).map (c :: ·) := by
  by_cases short : c ∈ ['"', '\\', '\x08', '\x0c', '\n', '\r', '\t']
  · refine ⟨.char c, ?_, fun _ => rfl⟩
    simp only [List.mem_cons, List.not_mem_nil, or_false] at short
    rcases short with rfl | rfl | rfl | rfl | rfl | rfl | rfl <;>
      simp [escapeChar, scanString, shortEscape?]
  simp only [List.mem_cons, List.not_mem_nil, or_false, not_or] at short
  by_cases control : c.toNat < 0x20
  · have word := hexWord?_hexDigits c.toNat control
    split at word
    · next a b d e digits =>
      have units := joined?_unit (n := c.toNat) (by omega)
      rw [Char.ofNat_toNat] at units
      exact ⟨.unit c.toNat, by simp [escapeChar, short, control, digits, scanString, word], units⟩
    · cases word
  · refine ⟨.char c, ?_, fun _ => rfl⟩
    have itself : escapeChar c = [c] := by simp [escapeChar, short, control]
    rw [itself, List.singleton_append, scanString.eq_def]
    split
    · rename_i same
      cases same
    · rename_i same
      exact absurd (List.cons.inj same).1 short.1
    · rename_i same
      exact absurd (List.cons.inj same).1 short.2.1
    · rename_i same
      exact absurd (List.cons.inj same).1 short.2.1
    · rename_i same
      obtain ⟨rfl, rfl⟩ := List.cons.inj same
      rw [if_neg (not_or.2 ⟨control, short.2.1⟩)]

/-- A text is read from its escaped characters, up to the closing quote. -/
theorem scanString_flatMap (text rest : List Char) :
    ∃ pieces, scanString (text.flatMap escapeChar ++ '"' :: rest) = some (pieces, rest) ∧
      joined? pieces = some text := by
  induction text with
  | nil => exact ⟨[], by simp [scanString], rfl⟩
  | cons c text ih =>
    obtain ⟨pieces, scanned, joined⟩ := ih
    obtain ⟨piece, first, join⟩ := scanString_escapeChar c (text.flatMap escapeChar ++ '"' :: rest)
    refine ⟨piece :: pieces, ?_, by rw [join, joined]; rfl⟩
    rw [List.flatMap_cons, List.append_assoc, first, scanned]
    rfl

/-! ## Tokens -/

mutual

/-- The tokens of a value. -/
def lexemes : Json → List Token
  | .array items =>
    .openArray :: ([Token.comma].intercalate (itemLexemes items) ++ [.closeArray])
  | .object fields =>
    .openObject :: ([Token.comma].intercalate (fieldLexemes fields) ++ [.closeObject])
  | .null | .unreadable => [.atom .null]
  | .bool b => [.atom (.bool b)]
  | .number literal => [.atom (.number literal)]
  | .string text => [.string (some text)]

/-- The tokens of each element of an array. -/
def itemLexemes : List Json → List (List Token)
  | [] => []
  | item :: rest => lexemes item :: itemLexemes rest

/-- The tokens of each field of an object. -/
def fieldLexemes : List (String × Json) → List (List Token)
  | [] => []
  | (key, value) :: rest =>
    (.string (some key) :: .colon :: lexemes value) :: fieldLexemes rest

end

/-- Blanks in front of a text do not matter for its tokens. -/
theorem tokens_blank {c : Char} (h : isBlank c = true) (s : List Char) :
    tokens (c :: s) = tokens s := by
  rw [tokens, if_pos h]

/-- A token at the head of a text is cut off. -/
theorem tokens_of_scanToken {c : Char} {s after : List Char} {token : Token}
    (h : scanToken (c :: s) = some (token, after)) (solid : isBlank c = false) :
    tokens (c :: s) = (tokens after).map (token :: ·) := by
  rw [tokens, if_neg (by simp [solid])]
  split
  · next none => rw [h] at none; cases none
  · next found => rw [h] at found; cases found; rfl

/-- A new line with its indentation adds no token. -/
theorem tokens_newLine (level : Nat) (s : List Char) :
    tokens ((newLine level).toList ++ s) = tokens s := by
  have blanks : ∀ n, tokens (List.replicate n ' ' ++ s) = tokens s := by
    intro n
    induction n with
    | zero => rfl
    | succ n ih => rw [List.replicate_succ, List.cons_append, tokens_blank (by decide), ih]
  rw [newLine, String.toList_ofList, List.cons_append, tokens_blank (by decide), blanks]

/-- A quoted text is one token, the text itself. -/
theorem tokens_quote (text : String) (s : List Char) :
    tokens ((quote text).toList ++ s) = (tokens s).map (.string (some text) :: ·) := by
  obtain ⟨pieces, scanned, joined⟩ := scanString_flatMap text.toList s
  rw [quote, String.toList_ofList, List.cons_append, List.append_assoc, List.singleton_append]
  refine tokens_of_scanToken ?_ (by decide)
  simp [scanToken, scanned, joined, String.ofList_toList]

/-- Characters of numerals are no blanks. -/
theorem isBlank_of_isNumeralChar {c : Char} (h : isNumeralChar c = true) : isBlank c = false := by
  by_contra blank
  simp only [isBlank, Bool.not_eq_false, Bool.or_eq_true, decide_eq_true_eq] at blank
  rcases blank with ((rfl | rfl) | rfl) | rfl <;> exact absurd h (by decide)

/-- A numeral is one token where nothing of a numeral follows. -/
theorem tokens_number {literal : String} (h : (Numeral.ofString? literal).isSome) {s : List Char}
    (ends : Ends s) :
    tokens (literal.toList ++ s) = (tokens s).map (.atom (.number literal) :: ·) := by
  have scanned := scanNumber_append h ends
  cases shape : literal.toList with
  | nil =>
    simp [Numeral.ofString?, shape, Numeral.scan, Numeral.scanWhole, Numeral.spanDigits_eq] at h
  | cons c rest =>
    have numeral : isNumeralChar c = true :=
      isNumeralChar_of_ofString? h c (shape ▸ List.mem_cons_self)
    rw [shape, List.cons_append] at scanned
    rw [List.cons_append]
    refine tokens_of_scanToken ?_ (isBlank_of_isNumeralChar numeral)
    -- No other token begins with a character of numerals.
    rw [scanToken.eq_def]
    split <;> rename_i head <;> try
      · obtain ⟨rfl, -⟩ := List.cons.inj head
        exact absurd numeral (by decide)
    rw [scanned, ← shape]
    simp

/-- Wherever a text stands it is cut off as a token. -/
def Marks (text : String) (token : Token) : Prop :=
  ∀ rest, tokens (text.toList ++ rest) = (tokens rest).map (token :: ·)

/-- Wherever a text stands, except before characters of numerals, it is cut into the tokens. -/
def Cuts (text : String) (ts : List Token) : Prop :=
  ∀ rest, Ends rest → tokens (text.toList ++ rest) = (tokens rest).map (ts ++ ·)

/-- What is a token wherever it stands is cut out as that token. -/
theorem Marks.cuts {text : String} {token : Token} (h : Marks text token) : Cuts text [token] :=
  fun rest _ => h rest

/-- A comma is a token. -/
theorem marks_comma : Marks "," .comma :=
  fun _ => tokens_of_scanToken rfl (by decide)

/-- The null value is a token. -/
theorem marks_null : Marks "null" (.atom .null) :=
  fun _ => tokens_of_scanToken rfl (by decide)

/-- The truth values are tokens. -/
theorem marks_bool (b : Bool) : Marks (if b then "true" else "false") (.atom (.bool b)) := by
  cases b <;> exact fun _ => tokens_of_scanToken rfl (by decide)

/-- Numerals end before a character that does not occur in them. -/
theorem ends_cons {c : Char} (h : isNumeralChar c = false) (rest : List Char) :
    Ends (c :: rest) := by
  intro d found
  cases found
  exact h

/-- Numerals end before a comma. -/
theorem ends_comma (rest : List Char) : Ends (",".toList ++ rest) :=
  ends_cons (by decide) rest

/-- Numerals end before a new line. -/
theorem ends_newLine (level : Nat) (rest : List Char) : Ends ((newLine level).toList ++ rest) := by
  rw [newLine, String.toList_ofList]
  exact ends_cons (by decide) _

section Lines

variable {α : Type} {line : α → String} {ts : α → List Token} {items : List α}

/-- Lines with commas between them are cut line by line. -/
theorem Cuts.intercalate (h : ∀ item ∈ items, Cuts (line item) (ts item)) (level : Nat) :
    Cuts (("," ++ newLine level).intercalate (items.map line))
      ([Token.comma].intercalate (items.map ts)) := by
  induction items with
  | nil => intro rest _; simp
  | cons item items ih =>
    obtain ⟨first, others⟩ := List.forall_mem_cons.1 h
    cases items with
    | nil => simpa using first
    | cons next items =>
      intro rest ends
      have lines := ih others rest ends
      simp only [List.map_cons, String.intercalate_cons_cons, List.intercalate_cons_cons,
        String.toList_append, List.append_assoc] at lines ⊢
      rw [first _ (ends_comma _), marks_comma, tokens_newLine, lines]
      simp [Function.comp_def]

/-- A block is cut into its brackets and its lines. -/
theorem Cuts.block (h : ∀ item ∈ items, Cuts (line item) (ts item)) (level : Nat)
    {opening closing : String} {first last : Token} (opens : Marks opening first)
    (closes : Marks closing last) :
    Cuts (block level opening (items.map line) closing)
      (first :: ([Token.comma].intercalate (items.map ts) ++ [last])) := by
  intro rest ends
  cases items with
  | nil =>
    rw [List.map_nil, Json.block, String.toList_append, List.append_assoc, opens, closes]
    simp [Function.comp_def]
  | cons item items =>
    have lines := Cuts.intercalate h (level + 1)
    rw [List.map_cons] at lines
    simp only [List.map_cons, Json.block, String.toList_append, List.append_assoc]
    rw [opens, tokens_newLine, lines _ (ends_newLine level _), tokens_newLine, closes]
    simp [Function.comp_def]

end Lines

/-- Items are printed one by one. -/
theorem prettyItems_eq (level : Nat) (items : List Json) :
    prettyItems level items = items.map (prettyAt level) := by
  induction items with
  | nil => rfl
  | cons item rest ih => rw [prettyItems, ih, List.map_cons]

/-- Fields are printed one by one, each behind its name. -/
theorem prettyFields_eq (level : Nat) (fields : List (String × Json)) :
    prettyFields level fields =
      fields.map fun field => quote field.1 ++ ": " ++ prettyAt level field.2 := by
  induction fields with
  | nil => rfl
  | cons field rest ih => rw [prettyFields, ih, List.map_cons]

/-- The tokens of several items are those of each. -/
theorem itemLexemes_eq (items : List Json) : itemLexemes items = items.map lexemes := by
  induction items with
  | nil => rfl
  | cons item rest ih => rw [itemLexemes, ih, List.map_cons]

/-- The tokens of several fields are those of each, behind its name and a colon. -/
theorem fieldLexemes_eq (fields : List (String × Json)) :
    fieldLexemes fields =
      fields.map fun field => .string (some field.1) :: .colon :: lexemes field.2 := by
  induction fields with
  | nil => rfl
  | cons field rest ih => rw [fieldLexemes, ih, List.map_cons]

/-- A field is cut into its key, a colon and its value. -/
theorem Cuts.field {key text : String} {ts : List Token} (h : Cuts text ts) :
    Cuts (quote key ++ ": " ++ text) (.string (some key) :: .colon :: ts) := by
  intro rest ends
  have colon : ∀ s, tokens (": ".toList ++ s) = (tokens s).map (.colon :: ·) := by
    intro s
    show tokens (':' :: ' ' :: s) = _
    have scanned : scanToken (':' :: ' ' :: s) = some (.colon, ' ' :: s) := rfl
    rw [tokens_of_scanToken scanned (by decide), tokens_blank (by decide)]
  rw [String.toList_append, String.toList_append, List.append_assoc, List.append_assoc,
    tokens_quote, colon, h rest ends]
  simp [Function.comp_def]

/-- The text of a plain value is cut into its tokens. -/
theorem Plain.cuts {j : Json} (h : Plain j) (level : Nat) :
    Cuts (prettyAt level j) (lexemes j) := by
  induction h generalizing level with
  | null => exact marks_null.cuts
  | bool b => exact (marks_bool b).cuts
  | number numeral => exact fun rest ends => tokens_number numeral ends
  | string text => exact fun rest _ => tokens_quote text rest
  | array _ ih =>
    rw [prettyAt, lexemes, prettyItems_eq, itemLexemes_eq]
    exact Cuts.block (fun item member => ih item member (level + 1)) level
      (fun _ => tokens_of_scanToken rfl (by decide)) (fun _ => tokens_of_scanToken rfl (by decide))
  | object _ ih =>
    rw [prettyAt, lexemes, prettyFields_eq, fieldLexemes_eq]
    exact Cuts.block (fun field member => (ih field member (level + 1)).field) level
      (fun _ => tokens_of_scanToken rfl (by decide)) (fun _ => tokens_of_scanToken rfl (by decide))

/-! ## Values -/

/-- Whatever is open around a value, its tokens put it there. -/
def Reads (ts : List Token) (j : Json) : Prop :=
  ∀ frames more, (ts ++ more).foldlM Reading.step ⟨.value, frames⟩ =
    more.foldlM Reading.step (Reading.close j frames)

/-- A token that closes a value by itself reads as that value. -/
theorem reads_single {token : Token} {j : Json}
    (h : ∀ frames, Reading.startValue frames token = some (Reading.close j frames)) :
    Reads [token] j := by
  intro frames more
  rw [List.singleton_append, List.foldlM_cons]
  show (Reading.startValue frames token >>= _) = _
  rw [h frames]
  rfl

/-- No value begins with the end of an array. -/
theorem lexemes_eq_cons (j : Json) :
    ∃ first rest, lexemes j = first :: rest ∧ first ≠ .closeArray := by
  cases j <;> simp [lexemes]

/-- The first element of an array is read like any other. -/
theorem foldlM_firstItem (j : Json) (outer : List Frame) (more : List Token) :
    (lexemes j ++ more).foldlM Reading.step ⟨.firstItem, .array [] :: outer⟩ =
      (lexemes j ++ more).foldlM Reading.step ⟨.value, .array [] :: outer⟩ := by
  obtain ⟨first, rest, shape, opens⟩ := lexemes_eq_cons j
  have same : Reading.step ⟨.firstItem, .array [] :: outer⟩ first =
      Reading.step ⟨.value, .array [] :: outer⟩ first := by
    cases first <;> first | rfl | exact absurd rfl opens
  rw [shape, List.cons_append, List.foldlM_cons, List.foldlM_cons, same]

/-- The elements of an array are put behind those that it holds already. -/
theorem foldlM_items {item : Json} {items : List Json}
    (h : ∀ next ∈ item :: items, Reads (lexemes next) next) (held : List Json) (outer : List Frame)
    (more : List Token) :
    ([Token.comma].intercalate ((item :: items).map lexemes) ++ .closeArray :: more).foldlM
        Reading.step ⟨.value, .array held :: outer⟩ =
      more.foldlM Reading.step (Reading.close (.array (held.reverse ++ item :: items)) outer) := by
  induction items generalizing item held with
  | nil =>
    rw [List.map_singleton, List.intercalate_singleton, h item List.mem_cons_self]
    simp [Reading.close, Reading.step]
  | cons next items ih =>
    obtain ⟨first, others⟩ := List.forall_mem_cons.1 h
    rw [List.map_cons, List.map_cons, List.intercalate_cons_cons, List.append_assoc,
      List.append_assoc, first]
    refine (ih others (item :: held)).trans ?_
    simp

/-- The fields of an object are put behind those that it holds already. -/
theorem foldlM_fields {field : String × Json} {fields : List (String × Json)}
    (h : ∀ next ∈ field :: fields, Reads (lexemes next.2) next.2)
    (held : List (Option String × Json)) (outer : List Frame) (more : List Token) :
    ([Token.comma].intercalate ((field :: fields).map fun next =>
        .string (some next.1) :: .colon :: lexemes next.2) ++ .closeObject :: more).foldlM
        Reading.step ⟨.key held outer, []⟩ =
      more.foldlM Reading.step (Reading.close (.ofFields (held.reverse ++
        (field :: fields).map fun next => (some next.1, next.2))) outer) := by
  induction fields generalizing field held with
  | nil =>
    have value := h field List.mem_cons_self (.object held (some field.1) :: outer)
      (.closeObject :: more)
    rw [List.map_singleton, List.intercalate_singleton]
    show (lexemes field.2 ++ Token.closeObject :: more).foldlM Reading.step
      ⟨.value, .object held (some field.1) :: outer⟩ = _
    rw [value]
    simp [Reading.close, Reading.step]
  | cons next fields ih =>
    obtain ⟨first, others⟩ := List.forall_mem_cons.1 h
    have value := first (.object held (some field.1) :: outer)
    rw [List.map_cons, List.map_cons, List.intercalate_cons_cons, List.append_assoc,
      List.append_assoc]
    show (lexemes field.2 ++ _).foldlM Reading.step
      ⟨.value, .object held (some field.1) :: outer⟩ = _
    rw [value]
    refine (ih others ((some field.1, field.2) :: held)).trans ?_
    simp

/-- Fields whose keys are texts are an object. -/
theorem ofFields_map (fields : List (String × Json)) :
    ofFields (fields.map fun field => (some field.1, field.2)) = .object fields := by
  have all : (fields.map fun field : String × Json => (some field.1, field.2)).mapM
      (fun f : Option String × Json => f.1.map (·, f.2)) = some fields := by
    rw [List.mapM_map]
    induction fields with
    | nil => rfl
    | cons field fields ih => simp [ih]
  rw [ofFields, all]

/-- The tokens of a plain value are read as that value. -/
theorem Plain.reads {j : Json} (h : Plain j) : Reads (lexemes j) j := by
  induction h with
  | null | bool | number | string => exact reads_single fun _ => rfl
  | @array items _ ih =>
    intro frames more
    rw [lexemes, itemLexemes_eq, List.cons_append, List.append_assoc, List.singleton_append]
    show (_ ++ Token.closeArray :: more).foldlM Reading.step ⟨.firstItem, .array [] :: frames⟩ = _
    cases items with
    | nil => rfl
    | cons item items =>
      have all := foldlM_items ih [] frames more
      rw [List.reverse_nil, List.nil_append] at all
      rw [← all]
      cases items with
      | nil =>
        rw [List.map_singleton, List.intercalate_singleton, foldlM_firstItem]
      | cons next items =>
        rw [List.map_cons, List.map_cons, List.intercalate_cons_cons, List.append_assoc,
          List.append_assoc, foldlM_firstItem]
  | @object fields _ ih =>
    intro frames more
    rw [lexemes, fieldLexemes_eq, List.cons_append, List.append_assoc, List.singleton_append]
    show (_ ++ Token.closeObject :: more).foldlM Reading.step ⟨.firstKey frames, []⟩ = _
    cases fields with
    | nil => rfl
    | cons field fields =>
      have all := foldlM_fields ih [] frames more
      rw [List.reverse_nil, List.nil_append, ofFields_map] at all
      rw [← all]
      cases fields with
      | nil => rw [List.map_singleton, List.intercalate_singleton]; rfl
      | cons next fields => rw [List.map_cons, List.map_cons, List.intercalate_cons_cons]; rfl

/-- A plain value is read back from its text. -/
theorem parse?_pretty {j : Json} (h : Plain j) : parse? j.pretty = some j := by
  have cut := h.cuts 0 [] nofun
  have read := h.reads [] []
  rw [List.append_nil] at cut read
  simp only [tokens, Option.map_some, List.append_nil] at cut
  rw [parse?, pretty, cut]
  simp [read, Reading.close]

end SheepScene.Json
