import FieldRules.Entries
import FieldRules.Rule

/-!
Which fields depend on which. A target of a rule depends on every condition of the rule, except on
one that bears its own name.
-/

namespace FieldRules

/-- Fields and those that depend on them. -/
structure Dependency where
  /-- Under every field the fields that depend on it directly. All are in the order in which they
  were first seen. -/
  successors : Entries (List String) := []
  deriving DecidableEq

namespace Dependency

/-- The fields. -/
def nodes (g : Dependency) : List String :=
  g.successors.keys

/-- The fields that depend directly on a field. -/
def next (g : Dependency) (node : String) : List String :=
  (g.successors.get? node).getD []

/-- All pairs of a field and one that depends on it. -/
def edges (g : Dependency) : List (String × String) :=
  g.successors.flatMap fun (node, next) => next.map fun successor => (node, successor)

/-- The dependencies with one more field. -/
def addNode (g : Dependency) (node : String) : Dependency :=
  if g.successors.contains node then g else ⟨g.successors.insert node []⟩

/-- The dependencies with one more pair. -/
def addEdge (g : Dependency) (node successor : String) : Dependency :=
  let g := (g.addNode node).addNode successor
  if successor ∈ g.next node then g
  else ⟨g.successors.insert node (g.next node ++ [successor])⟩

/-- The dependencies with those of the targets of a rule on one of its conditions. -/
def addCondition (targets : List Clause) (g : Dependency) (condition : Clause) : Dependency :=
  (targets.filter fun t => t.name != condition.name).foldl
    (fun g t => g.addEdge condition.name t.name) (g.addNode condition.name)

/-- The dependencies with those of a rule. -/
def addRule (g : Dependency) (r : Rule) : Dependency :=
  r.conditionList.foldl (addCondition r.targets) g

/-- The dependencies of rules. -/
def ofRules (rules : List Rule) : Dependency :=
  rules.foldl addRule {}

end Dependency

end FieldRules
