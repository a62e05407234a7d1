import FieldRules.Range
import FieldRules.Text.CharName
import FieldRules.Value

/-!
What judging values leaves to the machine that does it: which characters names stand for, and how
deeply groups, lists and mappings may be nested.
-/

namespace FieldRules

mutual

/-- How deeply lists and mappings are nested in a value. -/
def Value.depth : Value → Nat
  | .list xs => depthOfItems xs + 1
  | .map es => depthOfEntries es + 1
  | _ => 0

/-- How deeply lists and mappings are nested in items. -/
def Value.depthOfItems : List Value → Nat
  | [] => 0
  | x :: xs => max x.depth (depthOfItems xs)

/-- How deeply lists and mappings are nested in entries. -/
def Value.depthOfEntries : List (String × Value) → Nat
  | [] => 0
  | (_, x) :: es => max x.depth (depthOfEntries es)

end

namespace Range

/-- What may be nested when a value is judged, counted by openings: the groups of a regular
expression, the lists and mappings of a value, and those of a text that is read as a list. -/
def nesting : Range → Value → Nat
  | .pattern regex, v => max (regex.toList.count '(') v.depth
  | .array _ _, .text s => s.toList.count '[' + s.toList.count '\x7b'
  | .choices _ _, .text s => s.toList.count '[' + s.toList.count '\x7b'
  | _, v => v.depth

/-- The machine that judges values. -/
structure Runtime where
  /-- The code point of a character by its name. -/
  codeOfName? : List Char → Option Nat
  /-- What may be nested in any case. -/
  room : Nat
  /-- Whether something is nested too deeply to be gone through. -/
  overflows : Range → Value → Bool
  overflows_of_room : ∀ range v, nesting range v ≤ room → overflows range v = false

/-- A machine that knows the characters that texts are mostly written with, and goes through what is
nested at any depth. -/
def Runtime.usual : Runtime where
  codeOfName? := Text.codeOfName?
  room := 100
  overflows _ _ := false
  overflows_of_room _ _ _ := rfl

end Range

end FieldRules
