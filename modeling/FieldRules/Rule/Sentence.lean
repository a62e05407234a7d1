import FieldRules.Rule
import FieldRules.Text.Split

/-!
Rules as sentences.
-/

namespace FieldRules

namespace Clause

/-- The word that turns a clause into its opposite. -/
def negation (c : Clause) : String :=
  if c.negated then "not " else ""

/-- A name or a value between quotes. -/
def marked (s : String) : String :=
  "'" ++ s ++ "'"

/-- The value of a clause in a sentence, empty when there is none. -/
def valueText (c : Clause) : String :=
  c.demand.value?.getD ""

/-- A clause as something to be done. -/
def asTarget (c : Clause) : String :=
  marked c.name ++
    match c.state with
    | .set => " is required to be " ++ c.negation ++ "set"
    | .setToValue =>
      " is required to be " ++ c.negation ++ "set to the value " ++ marked c.valueText
    | .contains => " must " ++ c.negation ++ "contain " ++ marked c.valueText

/-- A clause as something that may hold. -/
def asCondition (c : Clause) : String :=
  marked c.name ++
    match c.state with
    | .set => " is " ++ c.negation ++ "set"
    | .setToValue => " is " ++ c.negation ++ "set to the value " ++ marked c.valueText
    | .contains => " " ++ c.negation ++ "contains " ++ marked c.valueText

end Clause

namespace Rule

/-- The sentence of a rule that names some of its targets. -/
def sentenceOn (r : Rule) (targets : List Clause) : String :=
  let enforced := Text.join " and " (targets.map Clause.asTarget)
  if r.isUnconditional then enforced ++ "."
  else
    "If " ++ Text.join " and " (r.conditionList.map Clause.asCondition) ++ ", then " ++ enforced ++ "."

/-- The sentence of a rule. -/
def sentence (r : Rule) : String :=
  r.sentenceOn r.targets

/-- The sentence of a rule that names only its targets on one name. -/
def sentenceFor (r : Rule) (name : String) : String :=
  r.sentenceOn (r.targets.filter fun t => t.name == name)

end Rule

end FieldRules
