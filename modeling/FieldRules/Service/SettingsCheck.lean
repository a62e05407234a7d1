import FieldRules.Field.Overlay
import FieldRules.Range.Check
import FieldRules.Range.Describe
import FieldRules.Run
import FieldRules.Service.Selection

/-!
The check of settings against a template: a setting that the rules require must be there, and every
setting must lie in the range of its field.
-/

namespace FieldRules

/-- What is wrong with a setting. -/
inductive SettingsIssue
  | missing (field expected : String)
  | invalid (field expected actual : String)
  /-- No field of the template has the setting. -/
  | unknown (field : String)
  deriving DecidableEq

namespace SettingsIssue

/-- The field of an issue. -/
def field : SettingsIssue → String
  | missing field _ => field
  | invalid field _ _ => field
  | unknown field => field

/-- What a message says of an issue. -/
def message : SettingsIssue → String
  | missing _ _ => "Required field is missing"
  | invalid _ _ _ => "Value does not match expected range"
  | unknown _ => "Field not defined in template"

/-- The name of the kind of an issue. -/
def kind : SettingsIssue → String
  | missing _ _ => "missing"
  | invalid _ _ _ => "invalid"
  | unknown _ => "warning"

/-- Whether a required setting is missing. -/
def isMissing : SettingsIssue → Bool
  | missing _ _ => true
  | _ => false

/-- Whether a setting lies outside its range. -/
def isInvalid : SettingsIssue → Bool
  | invalid _ _ _ => true
  | _ => false

/-- Whether a setting is merely unknown. -/
def isWarning : SettingsIssue → Bool
  | unknown _ => true
  | _ => false

/-- The record of an issue. -/
def toRecord (i : SettingsIssue) : Value :=
  .map ([("field", .text i.field), ("type", .text i.kind), ("message", .text i.message)] ++
    match i with
    | missing _ expected => [("expected", .text expected)]
    | invalid _ expected actual => [("expected", .text expected), ("actual", .text actual)]
    | unknown _ => [])

end SettingsIssue

/-- The check of settings. -/
structure SettingsCheck where
  issues : List SettingsIssue
  /-- The number of settings. -/
  total : Nat
  /-- The number of settings of fields that nothing is wrong with. -/
  valid : Nat
  deriving DecidableEq

namespace SettingsCheck

/-- The number of missing settings. -/
def missing (c : SettingsCheck) : Nat :=
  c.issues.countP SettingsIssue.isMissing

/-- The number of settings outside their range. -/
def invalid (c : SettingsCheck) : Nat :=
  c.issues.countP SettingsIssue.isInvalid

/-- The number of unknown settings. -/
def warnings (c : SettingsCheck) : Nat :=
  c.issues.countP SettingsIssue.isWarning

/-- Whether nothing is missing or invalid. -/
def isValid (c : SettingsCheck) : Bool :=
  c.missing == 0 && c.invalid == 0

/-- Whether settings pass, unknown ones only when the check is not strict. -/
def passes (c : SettingsCheck) (strict : Bool) : Bool :=
  c.isValid && !(strict && c.warnings != 0)

/-- The reply of a check. -/
def reply (c : SettingsCheck) (strict : Bool) : Reply where
  ok := c.passes strict
  operation := "validate_settings"
  data := [("is_valid", .bool c.isValid), ("issues", .list (c.issues.map SettingsIssue.toRecord)),
    ("summary", .map [("total_fields", .int c.total), ("valid_fields", .int c.valid),
      ("missing_required", .int c.missing), ("invalid_values", .int c.invalid),
      ("warnings", .int c.warnings)])]
  warnings := (c.issues.filter SettingsIssue.isWarning).map fun i => i.field ++ ": " ++ i.message

/-- What is found out about the setting of one field. -/
inductive Finding
  | issue (issue : SettingsIssue)
  | valid
  | absent
  deriving DecidableEq

/-- The issue of a finding, if it is one. -/
def Finding.issue? : Finding → Option SettingsIssue
  | .issue i => some i
  | _ => none

/-- Ranges of any text, with which no setting is compared. -/
def freeRanges : List String :=
  ["", "string"]

/-- The words for a range of a field that has none or one. -/
def expected (range : String) : Except Fault String :=
  if range = "" then .ok "any value" else Range.describeText? range

/-- What is found out about a setting that is there. -/
def findValue (f : Field) (value : Value) : Except Fault Finding := do
  if freeRanges.contains f.range then return .valid
  if ← Range.accepts f.range value then return .valid
  return .issue (.invalid f.name (← Range.describeText? f.range) (← value.mention))

/-- What is found out about the setting of a field after rules were applied. -/
def find (rules : List Rule) (settings : Entries Value) (f : Field) : Except Fault Finding :=
  match Entries.get? settings f.name with
  | some value => findValue f value
  | none =>
    if f.isChecked || Rule.isRequired f.name rules then
      (expected f.range).map fun words => .issue (.missing f.name words)
    else .ok .absent

/-- The settings that no field has, nor any above them. -/
def unknown (fields : List Field) (settings : Entries Value) : List String :=
  (Entries.keys settings).filter fun key =>
    !fields.any fun f => f.name == key || Path.isUnder key f.name

/-- The check of settings against fields, when the rules left the merged ones as `updated`. -/
def of (fields updated : List Field) (rules : List Rule) (settings : Entries Value) :
    Except Fault SettingsCheck := do
  let findings ← updated.mapM (find rules settings)
  return {
    issues := findings.filterMap Finding.issue? ++ (unknown fields settings).map .unknown
    total := settings.length
    valid := findings.countP (· = .valid) }

end SettingsCheck

namespace Template

/-- The check of settings against the fields of a template and some rules. -/
def checkSettings (t : Template) (rules : List Rule) (settings : Entries Value) :
    Except Failure SettingsCheck :=
  match Field.overlay t.fields settings with
  | .refused issues => .error (.record issues)
  | .accepted merged =>
    Except.mapError .fault do
      let outcome ← Rule.apply merged rules
      SettingsCheck.of t.fields outcome.fields rules settings

/-- The rules that settings are checked with: none when the template has no sets of rules. -/
def rulesFor (t : Template) (ref : RuleSetRef) : Except Refusal (List Rule) :=
  if t.ruleSets.isEmpty then .ok [] else (t.resolution ref).map (·.rules)

/-- The reply of a check of settings. -/
def settingsReply (t : Template) (settings : Entries Value) (ref : RuleSetRef) (strict : Bool) :
    Except Failure Reply :=
  match t.rulesFor ref with
  | .error refusal => t.refuse "validate_settings" refusal
  | .ok rules => (t.checkSettings rules settings).map fun c => c.reply strict

end Template

end FieldRules
