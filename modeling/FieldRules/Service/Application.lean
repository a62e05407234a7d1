import FieldRules.Record.Event
import FieldRules.Run
import FieldRules.Service.Selection

/-!
Applying a set of rules to the fields of a template.
-/

namespace FieldRules

/-- A run of a set of rules over the fields of a template. -/
structure Application where
  /-- The name of the set. -/
  ruleSet : String
  /-- The number of rules that it resolves to. -/
  ruleCount : Nat
  run : Run

/-- The run of a set of rules over the fields of a template, after an event. -/
def Template.apply (t : Template) (ref : RuleSetRef) (trigger : Option Trigger)
    (before : Option (List Field)) : Except Refusal Application := do
  let r ← t.resolution ref
  return ⟨r.ruleSet.name, r.rules.length, .of t.fields r.rules trigger before⟩

/-- The reply of a run. -/
def Application.reply (a : Application) : Except Failure Reply := do
  let outcome ← a.run.outcome.mapError .fault
  return {
    ok := true
    operation := "apply"
    data := [("fields", .list (outcome.fields.map Field.toRecord)),
      ("disabled_reasons", .map (outcome.reasons.map fun (name, reason) => (name, .text reason))),
      ("changes", .list (outcome.changes.map Change.toRecord))]
    notes := some [("rule_set", .text a.ruleSet), ("rule_count", .int a.ruleCount)] }

/-- The reply of a run of the set of rules that is asked for. -/
def Template.applyReply (t : Template) (ref : RuleSetRef) (trigger : Option Trigger)
    (before : Option (List Field)) : Except Failure Reply :=
  match t.apply ref trigger before with
  | .error refusal => t.refuse "apply" refusal
  | .ok a => a.reply

end FieldRules
