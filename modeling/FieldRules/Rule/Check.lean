import FieldRules.Dependency.Contrapositive
import FieldRules.Rule.Conflict
import FieldRules.Settings

/-!
The check of a list of rules: cycles and contradictions are errors, rules that could be one are
worth a warning.
-/

namespace FieldRules

namespace Rule

/-- The numbers of rules in a message, counted from one. -/
def numbers (positions : List Nat) : String :=
  Text.join ", " (positions.map fun i => toString (i + 1))

/-- The suggestion to merge the rules that have no conditions. -/
def mergeUnconditional (rules : List Rule) : List String :=
  let free := (rules.zipIdx.filter fun p => p.1.isUnconditional).map (·.2)
  if free.length > 1 then ["Rules " ++ numbers free ++ " can be merged as they have no conditions."]
  else []

/-- The suggestions to merge rules: those without conditions, and those that have the same
conditions and no conflicts. -/
def mergeSuggestions (rules : List Rule) : List String :=
  mergeUnconditional rules ++ (bySignature rules).filterMap fun (signature, group) =>
    if signature.isEmpty || group.length < 2 then none
    else if (targetConflicts (group.map (·.1))).isEmpty then
      some ("Rules " ++ numbers (group.map (·.2)) ++
        " can be merged as they have identical conditions.")
    else none

end Rule

/-- What a check found. -/
structure Check where
  errors : List String
  warnings : List String := []
  deriving DecidableEq

namespace Check

/-- Whether there is no error. -/
def isValid (c : Check) : Bool :=
  c.errors.isEmpty

/-- The check of a list of rules. -/
def ofRules (settings : CheckSettings) (rules : List Rule) : Check where
  errors :=
    let cycles := Dependency.cycleMessages rules
    (if settings.filterContrapositives then Dependency.harmful cycles rules else cycles) ++
      Rule.contradictions rules ++ Rule.disputes rules
  warnings := if settings.suggestMerges then Rule.mergeSuggestions rules else []

end Check

end FieldRules
