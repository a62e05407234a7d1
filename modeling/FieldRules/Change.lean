import FieldRules.Field
import FieldRules.Value.Agreement

/-!
Changes of fields, one property at a time, so that they can be made again and taken back.
-/

namespace FieldRules

/-- The properties of a field that rules change. -/
inductive Property
  | checked
  | value
  deriving DecidableEq

/-- The name of a property. -/
def Property.name : Property → String
  | .checked => "checked"
  | .value => "value"

/-- All properties. -/
def Property.all : List Property :=
  [.checked, .value]

/-- A mark as a value. -/
def Value.ofMark : Option Bool → Value
  | some b => .bool b
  | none => .null

/-- The change of one property of a field, and the reason for it. -/
structure Change where
  /-- The name of the field. -/
  field : String
  property : Property
  old : Value := .null
  new : Value := .null
  reason : String
  deriving DecidableEq

/-- The changes that lead from one state of a field to another: of the mark, then of the value. -/
def Field.changesTo (old new : Field) (reason : String) : List Change :=
  (if old.checked = new.checked then []
    else [⟨old.name, .checked, .ofMark old.checked, .ofMark new.checked, reason⟩]) ++
  if Value.changed old.value new.value then [⟨old.name, .value, old.value, new.value, reason⟩]
  else []

end FieldRules
