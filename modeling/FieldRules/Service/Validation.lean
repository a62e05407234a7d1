import FieldRules.Rule.Check
import FieldRules.Service.Selection

/-!
The check of sets of rules, each together with its ancestors, and of the ways in which the sets of a
template extend each other.
-/

namespace FieldRules

/-- The report on one set of rules. -/
inductive RuleSetReport
  /-- The set could not be resolved. -/
  | circular (name : String) (cycle : InheritanceCycle)
  /-- The rules that the set resolves to were checked. -/
  | checked (name : String) (ruleCount : Nat) (lineage : List String) (check : Check)
  deriving DecidableEq

namespace RuleSetReport

/-- The name of the set. -/
def name : RuleSetReport → String
  | circular name _ => name
  | checked name _ _ _ => name

/-- The number of rules that the set resolves to, if it does. -/
def ruleCount? : RuleSetReport → Option Nat
  | circular _ _ => none
  | checked _ count _ _ => some count

/-- The check of the rules. A set without an end to its way up has that as its only error. -/
def check : RuleSetReport → Check
  | circular _ cycle => { errors := [cycle.message] }
  | checked _ _ _ check => check

/-- The record of a report. -/
def toRecord (r : RuleSetReport) : Value :=
  .map ([("name", .text r.name)] ++
    (match r with
      | circular _ _ => []
      | checked _ count lineage _ =>
        [("rule_count", .int count), ("inheritance_chain", .ofTexts lineage)]) ++
    [("is_valid", .bool r.check.isValid), ("errors", .ofTexts r.check.errors),
      ("warnings", .ofTexts r.check.warnings)])

end RuleSetReport

/-- The reports on sets of rules, and what is wrong with the ways in which all sets of their
template extend each other. -/
structure Validation where
  reports : List RuleSetReport
  inheritanceErrors : List String
  deriving DecidableEq

namespace Validation

/-- Whether nothing is wrong. -/
def ok (v : Validation) : Bool :=
  v.inheritanceErrors.isEmpty && v.reports.all fun r => r.check.isValid

/-- The reply of a validation. -/
def reply (v : Validation) : Reply where
  ok := v.ok
  operation := "validate"
  data := [("rule_sets", .list (v.reports.map RuleSetReport.toRecord)),
    ("inheritance_errors", .ofTexts v.inheritanceErrors)]
  warnings := v.reports.flatMap fun r => r.check.warnings

end Validation

namespace Template

/-- The report on a set of rules. -/
def report (t : Template) (settings : CheckSettings) (s : RuleSet) : RuleSetReport :=
  match t.resolve (.name s.name) with
  | .error cycle => .circular s.name cycle
  | .ok rules =>
    .checked s.name rules.length (t.lineage (.name s.name)) (Check.ofRules settings rules)

/-- The validation of the sets of rules that are asked for, if there are any. -/
def validate? (t : Template) (settings : CheckSettings) (ref : Option RuleSetRef)
    (tag : Option String) : Option Validation :=
  match t.select ref tag with
  | [] => none
  | selected => some ⟨selected.map (t.report settings), t.inheritanceErrors⟩

/-- What was asked for, in a message. -/
def asked : Option RuleSetRef → Option String → Except Fault String
  | none, some tag => .ok ("tag " ++ Text.quoted tag)
  | some ref, _ => do return "RuleSet " ++ (← ref.inspect)
  | none, none => do return "RuleSet " ++ (← Value.null.inspect)

/-- The reply of a validation of what is asked for. -/
def validateReply (t : Template) (settings : CheckSettings) (ref : Option RuleSetRef)
    (tag : Option String) : Except Failure Reply := do
  match t.validate? settings ref tag with
  | some v => return v.reply
  | none =>
    let what ← (asked ref tag).mapError .fault
    return { ok := false, operation := "validate", problem := some {
      code := "NOT_FOUND"
      message := "No rulesets found for " ++ what
      detail := [("available", .ofTexts t.ruleSetNames), ("tags", .ofTexts t.tags)] } }

end Template

end FieldRules
