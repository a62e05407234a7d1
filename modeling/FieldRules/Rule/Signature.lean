import FieldRules.Grouping
import FieldRules.Rule

/-!
The conditions of a rule without regard to their order. Rules with one signature hold together.
-/

namespace FieldRules

/-- What a condition asks, with an empty value where none matters. -/
structure Trait where
  name : String
  state : State
  negated : Bool
  value : String
  deriving DecidableEq

/-- What a condition asks. -/
def Clause.trait (c : Clause) : Trait :=
  ⟨c.name, c.state, c.negated, c.demand.subject?.getD ""⟩

/-- The order by name, by the name of the state, by negation and by value. -/
def Trait.le (a b : Trait) : Bool :=
  if a.name ≠ b.name then decide (a.name ≤ b.name)
  else if a.state ≠ b.state then decide (a.state.name ≤ b.state.name)
  else if a.negated ≠ b.negated then b.negated
  else decide (a.value ≤ b.value)

namespace Rule

/-- What the conditions of a rule ask, in ascending order. -/
def signature (r : Rule) : List Trait :=
  (r.conditionList.map Clause.trait).mergeSort Trait.le

/-- The positions of rules, and the rules, in groups of one signature. -/
def bySignature (rules : List Rule) : List (List Trait × List (Rule × Nat)) :=
  Grouping.groups (fun p => p.1.signature) rules.zipIdx

end Rule

end FieldRules
