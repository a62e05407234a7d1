import FieldRules.Path
import FieldRules.Value.Display

/-!
Fields: named values with the texts that explain them and a mark that includes them.
-/

namespace FieldRules

/-- A named value of a template. -/
structure Field where
  /-- The path of the field. -/
  name : String
  value : Value := .text ""
  info : String := ""
  /-- A value as an example. -/
  sample : String := ""
  /-- The values that are allowed, in the language of ranges. -/
  range : String := ""
  link : Option String := none
  /-- Whether the field is included. Without a mark it is not. -/
  checked : Option Bool := none
  deriving DecidableEq

namespace Field

/-- Whether the field is marked as included. -/
def isChecked (f : Field) : Bool :=
  f.checked == some true

/-- Whether an explanation of the field is missing. -/
def lacksText (f : Field) : Bool :=
  f.sample == "" || f.info == "" || f.range == ""

/-- The fields under a path, in order. -/
def under (fields : List Field) (parent : String) : List Field :=
  fields.filter fun f => Path.isUnder f.name parent

end Field

end FieldRules
