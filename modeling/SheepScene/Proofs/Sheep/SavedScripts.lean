import SheepScene.Proofs.Json.RoundTrip
import SheepScene.Sheep.ScriptFile

/-!
# Saved scripts

A script is loaded from its own text exactly as it was saved, whatever its names, its strings and
its code are, if all floats that its variables start from are finite. A float that is not is saved
as `null`, and then nothing is loaded (`Script.load?_save`). About numbers it is assumed that the
text of a finite float reads back as that float.
-/

set_option autoImplicit false

namespace SheepScene

/-! ## Records and tables -/

namespace Json

/-- A number within a bound is read back. -/
theorem natBelow?_ofNat {bound n : Nat} (h : n < bound) : (ofNat n).natBelow? bound = some n := by
  rw [natBelow?, int?_ofNat]
  simp [h]

/-- A word is read back. -/
theorem word?_ofNat (w : UInt32) : (ofNat w.toNat).word? = some w := by
  rw [word?, natBelow?_ofNat w.toNat_lt]
  simp

/-- Integers are plain. -/
theorem plain_ofInt (n : Int) : (ofInt n).Plain := by
  refine .number (Option.isSome_iff_exists.2 ?_)
  obtain ⟨numeral, found, -⟩ := Option.bind_eq_some_iff.1 (Numeral.toInt?_toString n)
  exact ⟨numeral, found⟩

/-- Natural numbers are plain. -/
theorem plain_ofNat (n : Nat) : (ofNat n).Plain :=
  plain_ofInt n

end Json

section Tables

variable {α : Type} {element : Json → Option α} {toJson : α → Json}

/-- A table is read if each of its elements is. -/
theorem Script.tableOfJson?_map {items : Array α} (h : ∀ a ∈ items, element (toJson a) = some a) :
    tableOfJson? element (some (.array (items.toList.map toJson))) = some items := by
  have all : ∀ list : List α, (∀ a ∈ list, element (toJson a) = some a) →
      (list.map toJson).mapM element = some list := by
    intro list
    induction list with
    | nil => intro _; rfl
    | cons a list ih =>
      intro each
      obtain ⟨first, others⟩ := List.forall_mem_cons.1 each
      simp [first, ih others]
  simp [tableOfJson?, Json.array?, all items.toList (by simpa using h)]

/-- A table is refused if one of its elements is. -/
theorem Script.tableOfJson?_map_eq_none {items : Array α}
    (h : ∃ a ∈ items, element (toJson a) = none) :
    tableOfJson? element (some (.array (items.toList.map toJson))) = none := by
  have refused : ∀ list : List α, (∃ a ∈ list, element (toJson a) = none) →
      (list.map toJson).mapM element = none := by
    intro list
    induction list with
    | nil => rintro ⟨a, member, -⟩; cases member
    | cons b list ih =>
      rintro ⟨a, member, missing⟩
      rcases List.mem_cons.1 member with rfl | later
      · simp [missing]
      · simp [ih ⟨a, later, missing⟩]
  simp [tableOfJson?, Json.array?, refused items.toList (by simpa using h)]

end Tables

/-! ## Values -/

namespace Value

/-- Whether a value is no infinite float and not the float that is no number. -/
def isFinite : Value → Bool
  | .float x =>
    match Binary32.read x with
    | .finite .. => true
    | _ => false
  | _ => true

/-- The text of a finite float reads back as the float. -/
def ReadsBack : Value → Prop
  | .float x => isFinite (.float x) →
    (Numeral.ofString? (FloatLayout.json.write x)).bind Numeral.toFloat? = some x
  | _ => True

instance : DecidablePred ReadsBack
  | .float x => inferInstanceAs (Decidable (isFinite (.float x) →
      (Numeral.ofString? (FloatLayout.json.write x)).bind Numeral.toFloat? = some x))
  | .int _ | .offset _ | .string _ => .isTrue trivial

/-- The text of a float is a numeral exactly if the float is finite. -/
theorem write_eq_null {x : Float32} (h : ReadsBack (.float x)) :
    FloatLayout.json.write x = "null" ↔ isFinite (.float x) = false := by
  constructor
  · intro null
    by_contra finite
    have back := h (by simpa using finite)
    rw [null] at back
    exact absurd back (by simp [show Numeral.ofString? "null" = none from by decide])
  · intro infinite
    unfold FloatLayout.write
    unfold isFinite at infinite
    split <;> simp_all [FloatLayout.json]

/-- A value that reads back is plain. -/
theorem plain_toJson {v : Value} (h : v.ReadsBack) : v.toJson.Plain := by
  have single : ∀ {key : String} {j : Json}, j.Plain → (Json.object [(key, j)]).Plain :=
    fun plain => .object (by simpa using plain)
  cases v with
  | int n => exact single (Json.plain_ofInt _)
  | float x =>
    refine single ?_
    show (if FloatLayout.json.write x = "null" then Json.null else _).Plain
    split
    · exact .null
    · next number =>
      have finite : isFinite (.float x) := by
        simpa [write_eq_null h] using number
      obtain ⟨numeral, found, -⟩ := Option.bind_eq_some_iff.1 (h finite)
      exact .number (Option.isSome_iff_exists.2 ⟨numeral, found⟩)
  | offset i => exact single (Json.plain_ofNat _)
  | string s => exact single (.string s)

/-- A value is read back unless it is a float that is not finite. -/
theorem ofJson?_toJson {v : Value} (h : v.ReadsBack) :
    ofJson? v.toJson = if v.isFinite then some v else none := by
  cases v with
  | int n =>
    have bounds : Int32.minValue.toInt ≤ n.toInt ∧ n.toInt ≤ Int32.maxValue.toInt :=
      ⟨n.minValue_le_toInt, n.toInt_le⟩
    simp only [toJson, ofJson?, isFinite, Json.int?_ofInt, Option.bind_eq_bind, Option.bind_some,
      if_pos bounds, Int32.ofInt_toInt, if_true]
  | float x =>
    show ofJson? (.object [("Float", if FloatLayout.json.write x = "null" then .null else _)]) = _
    split
    · next null =>
      simp [ofJson?, (write_eq_null h).1 null]
    · next number =>
      have finite : isFinite (.float x) := by
        simpa [write_eq_null h] using number
      simp [ofJson?, h finite, finite]
  | offset i => simp [toJson, ofJson?, isFinite, Json.word?_ofNat]
  | string s => rfl

end Value

/-! ## The tables of a script -/

/-- A variable is read back if its initial value is finite. -/
theorem Variable.ofJson?_toJson {v : Variable} (h : v.initial.ReadsBack) :
    ofJson? v.toJson = if v.initial.isFinite then some v else none := by
  have fields : v.toJson.record? ["name", "initial"] =
      some [some (.string v.name), some v.initial.toJson] := rfl
  rw [ofJson?, fields]
  cases finite : v.initial.isFinite <;> simp [Json.string?, Value.ofJson?_toJson h, finite]

/-- An entry point is read back. -/
theorem EntryPoint.ofJson?_toJson (f : EntryPoint) : ofJson? f.toJson = some f := by
  have fields : f.toJson.record? ["name", "offset"] =
      some [some (.string f.name), some (.ofNat f.offset.toNat)] := rfl
  rw [ofJson?, fields]
  simp [Json.string?, Json.word?_ofNat]

/-- An import is read back. -/
theorem Import.ofJson?_toJson (i : Import) : ofJson? i.toJson = some i := by
  have fields : i.toJson.record? ["name", "arg_count"] =
      some [some (.string i.name), some (.ofNat i.argCount.toNat)] := rfl
  rw [ofJson?, fields]
  simp [Json.string?, Json.word?_ofNat]

namespace Script

/-- A script is plain if its initial values read back. -/
theorem plain_toJson {s : Script} (h : ∀ v ∈ s.vars, v.initial.ReadsBack) : s.toJson.Plain := by
  have table : ∀ {α : Type} {toJson : α → Json} {items : Array α},
      (∀ a ∈ items, (toJson a).Plain) → (Json.array (items.toList.map toJson)).Plain := by
    intro α toJson items each
    exact .array (by simpa using each)
  have record : ∀ {first second : String} {text : String} {j : Json}, j.Plain →
      (Json.object [(first, .string text), (second, j)]).Plain := by
    intro first second text j plain
    exact .object (by simpa using ⟨.string text, plain⟩)
  refine .object ?_
  simp only [List.forall_mem_cons, List.not_mem_nil, false_implies, implies_true, and_true]
  refine ⟨.string s.name, table fun text _ => .string text, table fun v member => ?_,
    table fun f _ => ?_, table fun i _ => ?_, table fun byte _ => Json.plain_ofNat _⟩
  · exact record (Value.plain_toJson (h v member))
  · exact record (Json.plain_ofNat _)
  · exact record (Json.plain_ofNat _)

/-- A script is loaded from its own text as the table of its variables is read. -/
theorem load?_save_eq {s : Script} (h : ∀ v ∈ s.vars, v.initial.ReadsBack) :
    load? s.save =
      (tableOfJson? Variable.ofJson? (some (.array (s.vars.toList.map Variable.toJson)))).map
        fun vars => { s with vars } := by
  have fields : s.toJson.record? ["name", "strings", "variables", "functions", "imports",
      "bytecode"] = some [some (.string s.name), some (.array (s.strings.toList.map .string)),
        some (.array (s.vars.toList.map Variable.toJson)),
        some (.array (s.functions.toList.map EntryPoint.toJson)),
        some (.array (s.imports.toList.map Import.toJson)),
        some (.array (s.bytecode.toList.map fun byte => .ofNat byte.toNat))] := rfl
  have strings : tableOfJson? Json.string? (some (.array (s.strings.toList.map .string))) =
      some s.strings := tableOfJson?_map fun _ _ => rfl
  have functions : tableOfJson? EntryPoint.ofJson?
      (some (.array (s.functions.toList.map EntryPoint.toJson))) = some s.functions :=
    tableOfJson?_map fun f _ => f.ofJson?_toJson
  have imports : tableOfJson? Import.ofJson?
      (some (.array (s.imports.toList.map Import.toJson))) = some s.imports :=
    tableOfJson?_map fun i _ => i.ofJson?_toJson
  have bytecode : tableOfJson? (fun byte => (byte.natBelow? 256).map UInt8.ofNat)
      (some (.array (s.bytecode.toList.map fun byte => .ofNat byte.toNat))) = some s.bytecode :=
    tableOfJson?_map fun byte _ => by simp [Json.natBelow?_ofNat byte.toNat_lt]
  rw [load?, save, Json.parse?_pretty (plain_toJson h), Option.bind_some, ofJson?, fields]
  simp only [strings, functions, imports, bytecode, Json.string?, Option.bind_eq_bind,
    Option.bind_some, Option.pure_def]
  rw [Option.map_eq_bind]
  rfl

/-- A script is loaded from its own text exactly if all floats that its variables start from are
finite; otherwise nothing is loaded. -/
theorem load?_save (s : Script) (h : ∀ v ∈ s.vars, v.initial.ReadsBack) :
    (load? s.save = some s ↔ ∀ v ∈ s.vars, v.initial.isFinite) ∧
      ((∃ v ∈ s.vars, v.initial.isFinite = false) → load? s.save = none) := by
  have loaded (finite : ∀ v ∈ s.vars, v.initial.isFinite) : load? s.save = some s := by
    rw [load?_save_eq h, tableOfJson?_map]
    · rfl
    · intro v member
      rw [Variable.ofJson?_toJson (h v member), if_pos (finite v member)]
  have refused (infinite : ∃ v ∈ s.vars, v.initial.isFinite = false) : load? s.save = none := by
    obtain ⟨v, member, infinite⟩ := infinite
    rw [load?_save_eq h, tableOfJson?_map_eq_none, Option.map_none]
    refine ⟨v, member, ?_⟩
    rw [Variable.ofJson?_toJson (h v member), infinite]
    rfl
  refine ⟨⟨fun found v member => ?_, loaded⟩, refused⟩
  by_contra infinite
  rw [refused ⟨v, member, by simpa using infinite⟩] at found
  cases found

/-- A script with awkward strings and a finite float is loaded again; with a float that is no number
beside the others it is not. -/
theorem load?_save_of_greeter :
    let greeter : Script := {
      name := "Grüße"
      strings := #["", "a \"quoted\" \\ line\n\ttab \x01", "雪"]
      vars := #[⟨"speed", .float (Float32.ofBits 0x3dcccccd)⟩, ⟨"count", .int (-7)⟩,
        ⟨"mood", .string "fine"⟩, ⟨"label", .offset 2⟩]
      functions := #[⟨"main", 0⟩]
      imports := #[⟨"Log", 1⟩]
      bytecode := #[9, 0, 255] }
    let broken := { greeter with vars := greeter.vars.push ⟨"lost", .float Binary32.notANumber⟩ }
    load? greeter.save = some greeter ∧ load? broken.save = none := by
  intro greeter broken
  have finite : ∀ v ∈ greeter.vars, v.initial.isFinite := by decide +kernel
  have lost : ∃ v ∈ broken.vars, v.initial.isFinite = false :=
    ⟨⟨"lost", .float Binary32.notANumber⟩, by simp [broken], by decide +kernel⟩
  exact ⟨(load?_save greeter (by decide +kernel)).1.2 finite,
    (load?_save broken (by decide +kernel)).2 lost⟩

end Script

end SheepScene
