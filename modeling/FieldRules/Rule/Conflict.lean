import FieldRules.Rule.Sentence
import FieldRules.Rule.Signature

/-!
Contradictions: targets that cannot be enforced together, and rules that are at odds with
themselves.
-/

namespace FieldRules

/-- Why two targets on one field cannot both be enforced. -/
inductive Conflict
  | negation (first second : Bool)
  | states (first second : State)
  | values (first second : String)
  deriving DecidableEq

namespace Conflict

/-- A truth value in a message. -/
def word (b : Bool) : String :=
  if b then "true" else "false"

/-- What a message says of a conflict. -/
def text : Conflict → String
  | .negation a b =>
    "cannot be both required (not=" ++ word a ++ ") and not required (not=" ++ word b ++ ")"
  | .states a b => "has conflicting states (" ++ a.name ++ " vs " ++ b.name ++ ")"
  | .values a b => "has conflicting values (\"" ++ a ++ "\" vs \"" ++ b ++ "\")"

/-- The message on a conflict of a field. -/
def message (name : String) (c : Conflict) : String :=
  "Contradiction detected for field \"" ++ name ++ "\": " ++ c.text ++ " under the same conditions"

end Conflict

namespace Clause

/-- Why two targets on one field cannot both be enforced, if they cannot. -/
def conflict? (s t : Clause) : Option Conflict :=
  if s.negated ≠ t.negated then some (.negation s.negated t.negated)
  else if s.state ≠ t.state then some (.states s.state t.state)
  else if s.demand.subject? ≠ t.demand.subject? then some (.values s.valueText t.valueText)
  else none

/-- Names on which a clause differs in state or in negation from the first one of its name, once
for each such clause. The clauses that came before are known by their names. -/
def disputed (first : List Clause) : List Clause → List String
  | [] => []
  | c :: cs =>
    match first.find? fun d => d.name == c.name with
    | none => disputed (first ++ [c]) cs
    | some d =>
      if d.state ≠ c.state ∨ d.negated ≠ c.negated then c.name :: disputed first cs
      else disputed first cs

end Clause

namespace Rule

/-- The messages on the conflicts between the targets of rules, field by field. -/
def targetConflicts (rules : List Rule) : List String :=
  (Grouping.groups (·.name) (rules.flatMap (·.targets))).flatMap fun (name, targets) =>
    (Grouping.pairs targets).filterMap fun (s, t) => (s.conflict? t).map (Conflict.message name)

/-- The messages on the conflicts between rules with the same conditions. -/
def contradictions (rules : List Rule) : List String :=
  (bySignature rules).flatMap fun group => targetConflicts (group.2.map (·.1))

/-- The message on clauses of one rule that are at odds. -/
def disputeMessage (number : Nat) (kind name : String) : String :=
  "Contradiction detected in rule " ++ toString number ++ " involving " ++ kind ++ " " ++ name

/-- The messages on the rules that are at odds with themselves. Rules are counted from one. -/
def disputes (rules : List Rule) : List String :=
  rules.zipIdx.flatMap fun (r, i) =>
    (Clause.disputed [] r.conditionList).map (disputeMessage (i + 1) "condition") ++
      (Clause.disputed [] r.targets).map (disputeMessage (i + 1) "target")

end Rule

end FieldRules
