import FieldRules.Rule
import FieldRules.Text.Quoted
import FieldRules.Text.Split

/-!
What can be wrong with a record, and where. A report lists each issue once, in ascending order.
-/

namespace FieldRules.Record

/-- What is wrong with a part of a record. -/
inductive Cause
  | missing
  | notText
  | notBool
  | unreadableBool
  | notInt
  | unreadableInt
  | oversizedInt
  | fractionalInt
  | infiniteInt
  | notList
  | notMap
  | notTuple
  | unknownChoice
  | unknownLiteral
  | tooShort
  | notRecord
  | notTagged
  | unexpectedKey
  | tagMissing
  | tagUnknown
  | noAlternative
  /-- A clause on a state that needs a value has none. -/
  | valueRequired (name : String) (state : State)
  deriving DecidableEq

/-- The name of a cause in a report. -/
def Cause.name : Cause → String
  | .missing => "missing"
  | .notText => "string_type"
  | .notBool => "bool_type"
  | .unreadableBool => "bool_parsing"
  | .notInt => "int_type"
  | .unreadableInt => "int_parsing"
  | .oversizedInt => "int_parsing_size"
  | .fractionalInt => "int_from_float"
  | .infiniteInt => "finite_number"
  | .notList => "list_type"
  | .notMap => "dict_type"
  | .notTuple => "tuple_type"
  | .unknownChoice => "enum"
  | .unknownLiteral => "literal_error"
  | .tooShort => "too_short"
  | .notRecord => "model_type"
  | .notTagged => "model_attributes_type"
  | .unexpectedKey => "extra_forbidden"
  | .tagMissing => "union_tag_not_found"
  | .tagUnknown => "union_tag_invalid"
  | .noAlternative => "union"
  | .valueRequired name state =>
    "value_error: RuleDomain " ++ Text.quoted name ++ " with state " ++ Text.quoted state.name ++
      " requires a value"

/-- A cause at a place inside a record. -/
structure Issue where
  path : List String
  cause : Cause
  deriving DecidableEq

/-- An issue as a line of a report. -/
def Issue.text (i : Issue) : String :=
  Text.join "." i.path ++ ": " ++ i.cause.name

/-- All issues, each once, in ascending order. -/
def report (issues : List Issue) : String :=
  Text.join "; " (((issues.map Issue.text).eraseDups).mergeSort fun a b => decide (a ≤ b))

end FieldRules.Record
