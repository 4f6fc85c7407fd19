import SheepScene.Text.Blank

/-!
# Settings files

A file of sections, each with keys and values, one line each. Names of sections and keys are in
small letters once they are read; case is folded for the letters A to Z, which is all that names to
look up are made of. A section may be opened again, and of two values for a key the later one
counts.
-/

set_option autoImplicit false

namespace SheepScene

/-- One key of a settings file, with a value unless the line has no sign between them. -/
structure IniEntry where
  sectionName : String
  key : String
  value : Option String
  deriving DecidableEq, Repr

/-- The keys of a settings file in the order of their lines. -/
abbrev Ini : Type :=
  List IniEntry

/-- Why a text is no settings file; lines are counted from one. -/
inductive IniError where
  /-- A section name is not closed. -/
  | openSection (line : Nat)
  /-- There is nothing before the sign between key and value. -/
  | emptyKey (line : Nat)
  deriving DecidableEq, Repr

/-- The sentence that reports an error. -/
def IniError.message : IniError → String
  | .openSection line => s!"line {line}: the name of the section is not closed"
  | .emptyKey line => s!"line {line}: the key is empty"

namespace Ini

/-- The section of keys before the first section. -/
def defaultSection : String := "default"

/-- A name without blanks around it, in small letters. -/
def name (s : List Char) : String :=
  String.ofList ((Text.trimBlanks s).map Char.toLower)

/-- What a line says. -/
inductive Line where
  | blank
  | header (sectionName : String)
  | entry (key : String) (value : Option String)
  deriving DecidableEq, Repr

/-- A line without comment and blanks around it. -/
def content (s : List Char) : List Char :=
  Text.trimBlanks (s.takeWhile fun c => c != ';' && c != '#')

/-- What stands before the last closing bracket, if there is one. -/
def closed? (s : List Char) : Option (List Char) :=
  match s.reverse.dropWhile (· != ']') with
  | [] => none
  | _ :: before => some before.reverse

/-- Reads the content of a line by its number. -/
def readLine (number : Nat) (s : List Char) : Except IniError Line :=
  match content s with
  | [] => .ok .blank
  | '[' :: rest => match closed? rest with
    | some inner => .ok (.header (name inner))
    | none => .error (.openSection number)
  | text =>
    let key := text.takeWhile fun c => c != '=' && c != ':'
    match text.dropWhile fun c => c != '=' && c != ':' with
    | [] => .ok (.entry (name key) none)
    | _ :: value =>
      if (Text.trimBlanks key).isEmpty then .error (.emptyKey number)
      else .ok (.entry (name key) (some (String.ofList (Text.trimBlanks value))))

/-- Reads lines from a line number on, in a section. -/
def readLines (sectionName : String) (number : Nat) : List (List Char) → Except IniError Ini
  | [] => .ok []
  | line :: rest => do
    match ← readLine number line with
    | .blank => readLines sectionName (number + 1) rest
    | .header sectionName => readLines sectionName (number + 1) rest
    | .entry key value =>
      return { sectionName, key, value } :: (← readLines sectionName (number + 1) rest)

/-- The lines of a text. -/
def lines : List Char → List (List Char)
  | [] => [[]]
  | c :: rest =>
    if c = '\n' then [] :: lines rest
    else match lines rest with
      | line :: others => (c :: line) :: others
      | [] => [[c]]

/-- Reads a settings file. -/
def read (text : String) : Except IniError Ini :=
  readLines defaultSection 1 (lines text.toList)

/-- The value of a key, from its last line. -/
def value? (ini : Ini) (sectionName key : String) : Option String :=
  (ini.reverse.find? fun e => e.sectionName == sectionName && e.key == key).bind (·.value)

/-- One line. -/
def writeEntry (e : IniEntry) : String :=
  match e.value with
  | some value => s!"{e.key}={value}\n"
  | none => s!"{e.key}\n"

/-- Writes entries after those of a section; each change of section gets a line of its own. -/
def writeFrom (sectionName : String) : Ini → String
  | [] => ""
  | e :: rest =>
    let header := if e.sectionName = sectionName then "" else s!"[{e.sectionName}]\n"
    header ++ writeEntry e ++ writeFrom e.sectionName rest

/-- Writes a settings file. -/
def write (ini : Ini) : String :=
  writeFrom defaultSection ini

end Ini

end SheepScene
