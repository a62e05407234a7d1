import FieldRules.Run
import FieldRules.Service.Selection

/-!
Compliance: whether the fields of a template are as a set of rules would leave them.
-/

namespace FieldRules

/-- The properties of fields that a set of rules would change. -/
structure Compliance where
  /-- The name of the set. -/
  ruleSet : String
  /-- Each of them as the change that would be made. -/
  issues : List Change
  deriving DecidableEq

namespace Compliance

/-- Whether nothing would be changed. -/
def isCompliant (c : Compliance) : Bool :=
  c.issues.isEmpty

/-- The record of a change that would be made. -/
def issueRecord (c : Change) : Value :=
  .map [("field", .text c.field), ("property", .text c.property.name), ("expected", c.new),
    ("actual", c.old), ("reason", .text c.reason)]

/-- The reply on compliance. -/
def reply (c : Compliance) : Reply where
  ok := c.isCompliant
  operation := "check_compliance"
  data := [("compliant", .bool c.isCompliant), ("issues", .list (c.issues.map issueRecord))]
  notes := some [("rule_set", .text c.ruleSet)]

/-- The changes between fields and the outcome of a run over them, field by field. Where the run
gives no reason, there is a general one. -/
def issuesOf (fields : List Field) (outcome : Outcome) : List Change :=
  (fields.zip outcome.fields).flatMap fun (f, g) =>
    f.changesTo g ((Entries.get? outcome.reasons f.name).getD "Rule enforcement")

end Compliance

namespace Template

/-- What a resolved set of rules would change. -/
def complianceWith (t : Template) (r : Resolution) : Except Fault Compliance := do
  let outcome ← Rule.apply t.fields r.rules
  return ⟨r.ruleSet.name, Compliance.issuesOf t.fields outcome⟩

/-- The reply on compliance with the set of rules that is asked for. -/
def complianceReply (t : Template) (ref : RuleSetRef) : Except Failure Reply :=
  match t.resolution ref with
  | .error refusal => t.refuse "check_compliance" refusal
  | .ok r => ((t.complianceWith r).map Compliance.reply).mapError .fault

end Template

end FieldRules
