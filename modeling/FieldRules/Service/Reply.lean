import FieldRules.Value

/-!
Replies: the one form in which every operation on a template answers.
-/

namespace FieldRules

/-- Why an operation could not be carried out. -/
structure Problem where
  code : String
  message : String
  detail : Entries Value := []
  deriving DecidableEq

/-- The answer of an operation. -/
structure Reply where
  ok : Bool
  /-- The name of the operation. -/
  operation : String
  data : Entries Value := []
  warnings : List String := []
  problem : Option Problem := none
  /-- What else there is to say, such as counts and names. -/
  notes : Option (Entries Value) := none
  deriving DecidableEq

end FieldRules
