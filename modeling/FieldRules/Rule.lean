/-!
Rules: when all conditions hold, every target is enforced. Conditions and targets are clauses.
-/

namespace FieldRules

/-- The three things that a clause can say of a field. -/
inductive State
  | set
  | setToValue
  | contains
  deriving DecidableEq

/-- The name of a state. -/
def State.name : State → String
  | .set => "set"
  | .setToValue => "set_to_value"
  | .contains => "contains"

/-- All states. -/
def State.all : List State :=
  [.set, .setToValue, .contains]

/-- What a clause asks of a field. Being set needs no value, but one may be noted. -/
inductive Demand
  | set (note : Option String)
  | setToValue (value : String)
  | contains (value : String)
  deriving DecidableEq

/-- The state that a demand is about. -/
def Demand.state : Demand → State
  | .set _ => .set
  | .setToValue _ => .setToValue
  | .contains _ => .contains

/-- The value that was given with a demand. -/
def Demand.value? : Demand → Option String
  | .set note => note
  | .setToValue value => some value
  | .contains value => some value

/-- The value that a demand depends on. -/
def Demand.subject? : Demand → Option String
  | .set _ => none
  | .setToValue value => some value
  | .contains value => some value

/-- One condition or one target. -/
structure Clause where
  /-- The path of a field, or of a group of fields. -/
  name : String
  demand : Demand
  /-- Whether the clause asks for the opposite. -/
  negated : Bool := false
  deriving DecidableEq

/-- The state that a clause is about. -/
def Clause.state (c : Clause) : State :=
  c.demand.state

/-- Conditions that must all hold, and targets that are then enforced. -/
structure Rule where
  conditions : Option (List Clause) := none
  targets : List Clause
  description : Option String := none
  targets_ne_nil : targets ≠ [] := by simp
  deriving DecidableEq

/-- The conditions of a rule, none if there is no list of them. -/
def Rule.conditionList (r : Rule) : List Clause :=
  r.conditions.getD []

/-- Whether a rule holds without any condition. -/
def Rule.isUnconditional (r : Rule) : Bool :=
  r.conditionList.isEmpty

end FieldRules
