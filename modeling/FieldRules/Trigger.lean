import FieldRules.Change

/-!
What leads to rules being run, and the changes that it made before they run.
-/

namespace FieldRules

namespace Trigger

/-- The kinds of events after which rules are run. -/
inductive Kind
  | fieldCheck
  | fieldUncheck
  | fieldValueChange
  | checkAll
  | uncheckAll
  | imported
  | templateLoad
  | rulesChanged
  | aiChange
  deriving DecidableEq

namespace Kind

/-- The name of a kind. -/
def name : Kind → String
  | .fieldCheck => "field_check"
  | .fieldUncheck => "field_uncheck"
  | .fieldValueChange => "field_value_change"
  | .checkAll => "check_all"
  | .uncheckAll => "uncheck_all"
  | .imported => "import"
  | .templateLoad => "template_load"
  | .rulesChanged => "rules_changed"
  | .aiChange => "ai_change"

/-- All kinds. -/
def all : List Kind :=
  [.fieldCheck, .fieldUncheck, .fieldValueChange, .checkAll, .uncheckAll, .imported,
    .templateLoad, .rulesChanged, .aiChange]

/-- Whether an event is an edit that a user may want to take back. -/
def isUndoable : Kind → Bool
  | .imported | .templateLoad | .rulesChanged => false
  | _ => true

/-- The reason that an event over all fields gives for its changes. -/
def bulkReason? : Kind → Option String
  | .checkAll => some "Checked all fields"
  | .uncheckAll => some "Unchecked all fields"
  | _ => none

/-- The property that an event on a single field changes. -/
def property? : Kind → Option Property
  | .fieldCheck | .fieldUncheck => some .checked
  | .fieldValueChange | .aiChange => some .value
  | _ => none

end Kind

end Trigger

/-- An event after which rules are run. -/
structure Trigger where
  kind : Trigger.Kind
  /-- The field that was edited. -/
  field : Option String := none
  old : Value := .null
  new : Value := .null
  /-- The assistant that made the edit. -/
  tool : Option String := none
  deriving DecidableEq

namespace Trigger

/-- The last field of a name. -/
def named? (fields : List Field) (name : String) : Option Field :=
  fields.reverse.find? fun f => f.name == name

/-- The changes of marks between the fields before an event and those after it. -/
def bulkChanges (before after : List Field) (reason : String) : List Change :=
  before.filterMap fun f => do
    let g ← named? after f.name
    if f.checked = g.checked then none
    else return ⟨f.name, .checked, .ofMark f.checked, .ofMark g.checked, reason⟩

/-- The reason for the change of a single field. -/
def reason (t : Trigger) : String :=
  if t.kind = .aiChange then
    "AI: " ++ (match t.tool with
      | none | some "" => "changed field"
      | some tool => tool)
  else "User action"

/-- The change of a single field. There is none without a field or between equal values. -/
def singleChange (t : Trigger) (property : Property) : List Change :=
  match t.field with
  | none | some "" => []
  | some name =>
    if Value.equal t.old t.new then [] else [⟨name, property, t.old, t.new, t.reason⟩]

/-- The changes that an event made. For one over all fields, they are found by comparison with
the fields before it, if those are known. -/
def changes (t : Trigger) (before : Option (List Field)) (after : List Field) : List Change :=
  match t.kind.bulkReason?, t.kind.property? with
  | some reason, _ => bulkChanges (before.getD []) after reason
  | none, some property => t.singleChange property
  | none, none => []

end Trigger

end FieldRules
