import FieldRules.Range
import FieldRules.Regex.Matcher
import FieldRules.Regex.Parser

/-!
Ranges in words for a reader.
-/

namespace FieldRules.Range

/-- An integer in digits. -/
def digits (n : Int) : Except Fault String :=
  (Numeral.write n).map String.ofList

/-- A count of characters. -/
def characters (n : Int) : Except Fault String := do
  let count ← digits n
  return if n = 1 then count ++ " character" else count ++ " characters"

/-- The words for texts with bounds on their length. -/
def describeText (b : Bounds) : Except Fault String := do
  match b.min, b.max with
  | some lo, some hi =>
    if lo = hi then return "Text with exactly " ++ (← characters lo)
    else return "Text between " ++ (← digits lo) ++ " and " ++ (← digits hi) ++ " characters"
  | some lo, none => return "Text with at least " ++ (← characters lo)
  | none, some hi => return "Text with up to " ++ (← characters hi)
  | none, none => return "Any text"

/-- The words for numbers with bounds. -/
def describeNumber (b : Bounds) : Except Fault String := do
  match b.min, b.max with
  | some lo, some hi =>
    return "A whole number between " ++ (← digits lo) ++ " and " ++ (← digits hi)
  | some lo, none => return "A whole number of " ++ (← digits lo) ++ " or more"
  | none, some hi => return "A whole number up to " ++ (← digits hi)
  | none, none => return "A whole number"

/-- The words for lists with bounds on their size. -/
def describeArray (type : ItemType) (b : Bounds) : Except Fault String := do
  let items := match type with
    | .string => "text values"
    | .integer => "whole numbers"
  match b.min, b.max with
  | some lo, some hi =>
    if lo = hi then return "A list of exactly " ++ (← digits lo) ++ " " ++ items
    else return "A list of " ++ (← digits lo) ++ " to " ++ (← digits hi) ++ " " ++ items
  | some lo, none => return "A list of at least " ++ (← digits lo) ++ " " ++ items
  | none, some hi => return "A list of up to " ++ (← digits hi) ++ " " ++ items
  | none, none => return "A list of " ++ items

/-- Up to five options in full, of more the first three and their number. -/
def summary (options : List String) : String :=
  if options.length ≤ 5 then Text.join ", " options
  else Text.join ", " (options.take 3) ++ ", ... (" ++ toString options.length ++ " options)"

/-- The words for one of some options. -/
def describeChoice : List String → String
  | [] => "Any value"
  | [a] => "Must be: " ++ a
  | [a, b] => "Either \"" ++ a ++ "\" or \"" ++ b ++ "\""
  | options => "One of: " ++ summary options

/-- The words for lists of options. -/
def describeChoices (options : List String) (b : Bounds) : Except Fault String := do
  let size ← match b.min, b.max with
    | some lo, some hi =>
      if lo = hi then pure (" (exactly " ++ (← digits lo) ++ ")")
      else pure (" (" ++ (← digits lo) ++ " to " ++ (← digits hi) ++ " items)")
    | some lo, none => pure (" (at least " ++ (← digits lo) ++ ")")
    | none, some hi => pure (" (up to " ++ (← digits hi) ++ ")")
    | none, none => pure ""
  let items := if options.isEmpty then "any values" else summary options
  return "Multiple of: " ++ items ++ size

/-- The marks of common regular expressions, and what each is for. Most are looked for in any
case. -/
def commonMarks : List (Bool × String × String) := [
  (true, "^\\^?\\[.*@.*\\]\\*?\\$?$|email", "A valid email address"),
  (true, "[0-9a-f]\x7b8\x7d.*[0-9a-f]\x7b4\x7d.*[0-9a-f]\x7b4\x7d",
    "A unique identifier (UUID/GUID)"),
  (false, "\\d\x7b1,3\x7d\\.\\d\x7b1,3\x7d\\.\\d\x7b1,3\x7d\\.\\d\x7b1,3\x7d|" ++
    "\\[0-9\\].*\\[0-9\\].*\\[0-9\\].*\\[0-9\\]", "An IP address"),
  (true, "\\d\x7b4\x7d.*\\d\x7b2\x7d.*\\d\x7b2\x7d|yyyy|mm|dd", "A date"),
  (true, "^\\^?\\[a-z0-9\\]", "Letters and numbers only"),
  (true, "^\\^?\\[a-z\\]", "Letters only"),
  (true, "^\\^?\\[0-9\\]|\\^?\\\\d", "Numbers only"),
  (true, "#?[0-9a-f]\x7b6\x7d|#?[0-9a-f]\x7b3\x7d", "A color code (e.g., #FF5733)"),
  (true, "path|file|directory|folder", "A file or folder path"),
  (true, "\\d+\\.\\d+\\.\\d+|version|semver", "A version number (e.g., 1.0.0)")]

/-- The text that a group of a regular expression matches in a text, if it matches at all. -/
def groupIn? (regex : String) (groups : List Nat) (s : String) : Option (List String) :=
  match Regex.parse {} regex with
  | .error _ => none
  | .ok p =>
    let text := s.toList.toArray
    (p.search text).map fun (_, cursor) =>
      groups.map fun g => (cursor.groupText? text g).getD ""

/-- Whether a regular expression has the mark of a common one. -/
def hasMark (anyCase : Bool) (mark regex : String) : Bool :=
  match Regex.parse { ignoreCase := anyCase } mark with
  | .ok p => p.occursIn regex
  | .error _ => false

/-- The words for a regular expression. -/
def describePattern (regex : String) : String :=
  match commonMarks.find? fun (anyCase, mark, _) => hasMark anyCase mark regex with
  | some (_, _, words) => words
  | none =>
    match groupIn? "^\\^?\\[([^\\]]+)\\][+*]?\\$?$" [1] regex with
    | some [chars] => "Text containing only: " ++ chars
    | _ =>
      match groupIn? "\\\x7b(\\d+),?(\\d*)\\\x7d" [1, 2] regex with
      | some [lo, hi] =>
        if hi = "" then "Text matching a specific format (" ++ lo ++ "+ characters)"
        else "Text matching a specific format (" ++ lo ++ "-" ++ hi ++ " characters)"
      | _ => "Text matching a specific format"

/-- The words for a range. -/
def describe : Range → Except Fault String
  | .scalar .string b => describeText b
  | .scalar .boolean _ => .ok "Yes or No (true/false)"
  | .scalar .url _ => .ok "A valid web address (URL)"
  | .scalar .integer b => describeNumber b
  | .array type b => describeArray type b
  | .choice options => .ok (describeChoice options)
  | .choices options b => describeChoices options b
  | .pattern regex => .ok (describePattern regex)

/-- The words for the range of a text. -/
def describeText? (s : String) : Except Fault String := do
  if Text.trim s = "" then return "Any value"
  let range ← parse s
  range.describe

end FieldRules.Range
