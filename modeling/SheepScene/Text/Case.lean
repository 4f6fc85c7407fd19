/-!
# Letter case

Names of functions, imports, variables and actors are the same when they agree up to the case of
the letters A to Z; strings in scripts are ordered the same way. Other letters keep their case.
-/

set_option autoImplicit false

namespace SheepScene.Text

/-- The characters of a text with A to Z made small. -/
def folded (s : String) : List Char :=
  s.toList.map Char.toLower

/-- Equality up to the case of A to Z. -/
def sameName (a b : String) : Bool :=
  folded a == folded b

/-- The order of the folded texts, character by character, by code point. -/
def compareFolded (a b : String) : Ordering :=
  List.compareLex compare (folded a) (folded b)

end SheepScene.Text
