import FieldRules.Text.Split

/-!
Names of fields as paths: segments with dots between them.
-/

namespace FieldRules.Path

/-- The segments of a name. -/
def segments (name : String) : List String :=
  (name.toList.splitOn '.').map String.ofList

/-- The name with these segments. -/
def ofSegments (parts : List String) : String :=
  Text.join "." parts

/-- Whether a name lies under another. -/
def isUnder (name parent : String) : Bool :=
  Text.startsWith (parent ++ ".") name

/-- A name together with all its ancestors, the shortest first. -/
def lineage (name : String) : List String :=
  let parts := segments name
  (List.range parts.length).map fun i => ofSegments (parts.take (i + 1))

/-- Names together with all their ancestors, each once, in ascending order. -/
def withAncestors (names : List String) : List String :=
  ((names.flatMap lineage).eraseDups).mergeSort fun a b => decide (a ≤ b)

end FieldRules.Path
