import FieldRules.Dependency.Cycles
import FieldRules.Grouping

/-!
Contrapositive rules. When "A is set, so B is not" stands beside "B is not set, so A is", the two
can both be enforced without undoing each other, and the cycle between them does no harm.
-/

namespace FieldRules

namespace Rule

/-- Whether the targets of a rule that some conditions repeat ask for the opposite, for each such
target. Only being set counts, and only the first condition on a name. -/
def links (r : Rule) (conditions : List Clause) : List Bool :=
  r.targets.filterMap fun t => do
    let c ← conditions.find? fun c => c.name == t.name
    if t.state = .set ∧ c.state = .set ∧ t.negated = c.negated then return t.negated else none

/-- Whether each of two rules has a target that a condition of the other one repeats, once negated
and once not. -/
def isContrapositive (r s : Rule) : Bool :=
  (r.links s.conditionList).any fun a => (s.links r.conditionList).any fun b => a != b

/-- The names in the conditions and the targets of a rule. -/
def names (r : Rule) : List String :=
  (r.conditionList ++ r.targets).map (·.name)

/-- The names in all rules that are contrapositive to another one, each once, in ascending
order. -/
def contrapositiveNames (rules : List Rule) : List String :=
  (((Grouping.pairs rules).filter fun p => p.1.isContrapositive p.2).flatMap
    fun p => p.1.names ++ p.2.names).eraseDups.mergeSort fun a b => decide (a ≤ b)

end Rule

namespace Dependency

/-- The path in a message on a cycle. -/
def pathOf? (message : String) : Option (List String) :=
  if Text.startsWith cycleStart message then
    some ((Text.split arrow (String.ofList (message.toList.drop cycleStart.length))).map Text.trim)
  else none

/-- The messages without those on cycles that lie wholly in contrapositive rules. -/
def harmful (messages : List String) (rules : List Rule) : List String :=
  if messages.isEmpty then []
  else
    let harmless := Rule.contrapositiveNames rules
    messages.filter fun message =>
      match pathOf? message with
      | some path => !path.all harmless.contains
      | none => true

end Dependency

end FieldRules
