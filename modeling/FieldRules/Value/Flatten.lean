import FieldRules.Json.Encode
import FieldRules.Path
import FieldRules.Value

/-!
Nested mappings as flat ones: every leaf stands under the path of keys that leads to it. An item of
a list is addressed by its position, counted from one.
-/

namespace FieldRules.Value

/-- The start of the paths below a path. -/
def startUnder (path : String) : String :=
  if path = "" then "" else path ++ "."

mutual

/-- The leaves of a mapping, whose keys go on from `start`. -/
def entryLeaves (start : String) : List (String × Value) → List (String × Value)
  | [] => []
  | (k, v) :: es => leaves (start ++ k) v ++ entryLeaves start es

/-- The leaves of a value at a path. -/
def leaves (path : String) : Value → List (String × Value)
  | .list xs => itemLeaves path 1 xs
  | .map es => entryLeaves (startUnder path) es
  | v => [(path, v)]

/-- The leaves of the items of a list, from a position on. A list in a list is a leaf. -/
def itemLeaves (path : String) : Nat → List Value → List (String × Value)
  | _, [] => []
  | n, .map es :: xs =>
    entryLeaves (startUnder (path ++ "." ++ toString n)) es ++ itemLeaves path (n + 1) xs
  | n, x :: xs => (path ++ "." ++ toString n, x) :: itemLeaves path (n + 1) xs

end

/-- A nested mapping as a flat one, with all paths under `path`. -/
def flatten (entries : Entries Value) (path : String) : Entries Value :=
  Entries.ofPairs (entryLeaves (startUnder path) entries)

/-- A decoded setting as a value of a field: nothing is the empty text, and a mapping is its
JSON. -/
def toFieldValue : Value → Except Fault Value
  | .null => .ok (.text "")
  | .map es => (Json.encode (.map es)).map .text
  | v => .ok v

/-- Decoded settings as values of fields. -/
def toFieldValues (entries : Entries Value) : Except Fault (Entries Value) :=
  entries.mapM fun (k, v) => do
    let v ← v.toFieldValue
    return (k, v)

end FieldRules.Value
