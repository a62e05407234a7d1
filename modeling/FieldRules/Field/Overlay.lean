import FieldRules.Record.Template

/-!
Settings laid over the fields of a template.
-/

namespace FieldRules.Field

/-- Fields by their names, all checked. A later field replaces an earlier one of its name. -/
def checkedByName (fields : List Field) : Entries Field :=
  Entries.ofPairs (fields.map fun f => (f.name, { f with checked := some true }))

/-- Fields by name with settings laid over them. A setting that no field has the name of becomes a
field, if its value can be that of one. -/
def overlayEntries (lib : Record.Library) (fields : Entries Field) :
    Entries Value → Record.Verdict (Entries Field)
  | [] => .accepted fields
  | (name, value) :: settings =>
    match Entries.get? fields name with
    | some f =>
      overlayEntries lib (Entries.insert fields name { f with value, checked := some true }) settings
    | none =>
      ((lib.value value).under "value").andThen fun value =>
        overlayEntries lib (Entries.insert fields name { name, value, checked := some true })
          settings

/-- The fields of a template and of its settings, all checked. -/
def overlay (fields : List Field) (settings : Entries Value) (lib : Record.Library := .lax) :
    Record.Verdict (List Field) :=
  (overlayEntries lib (checkedByName fields) settings).map fun es => es.map (·.2)

end FieldRules.Field
