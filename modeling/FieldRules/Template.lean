import FieldRules.Field
import FieldRules.Rule

/-!
Templates: fields together with named sets of rules.
-/

namespace FieldRules

/-- A named set of rules that may extend another. -/
structure RuleSet where
  name : String
  description : String := ""
  tags : List String := []
  rules : List Rule := []
  /-- The name of the set that this one extends. -/
  parent : Option String := none
  deriving DecidableEq

/-- Fields and the sets of rules for them. -/
structure Template where
  name : String := ""
  fileName : String := ""
  version : String := ""
  description : String := ""
  owner : String := ""
  application : Option String := none
  docs : Option String := none
  command : Option String := none
  fields : List Field := []
  ruleSets : List RuleSet := []
  deriving DecidableEq

end FieldRules
