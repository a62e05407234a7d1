/-!
Lists in groups and in pairs.
-/

namespace FieldRules.Grouping

variable {α : Type u} {κ : Type v}

/-- The items of a list in groups of one key, in the order in which the keys first come. -/
def groups [DecidableEq κ] (key : α → κ) (xs : List α) : List (κ × List α) :=
  let keyed := xs.map fun x => (key x, x)
  (keyed.map (·.1)).eraseDups.map fun k => (k, (keyed.filter fun e => e.1 = k).map (·.2))

/-- All pairs of an item and a later one. -/
def pairs : List α → List (α × α)
  | [] => []
  | x :: xs => xs.map (fun y => (x, y)) ++ pairs xs

end FieldRules.Grouping
