/-!
Settings of the library, with the values that they have when nothing is set.
-/

namespace FieldRules

/-- What the checks of rules report. -/
structure CheckSettings where
  /-- Whether cycles between contrapositive rules are tolerated. -/
  filterContrapositives : Bool := true
  /-- Whether rules that could be merged are reported. -/
  suggestMerges : Bool := true
  deriving DecidableEq

/-- What is noted of the runs of rules. -/
structure AuditSettings where
  enabled : Bool := true
  loadPlugins : Bool := false
  deriving DecidableEq

/-- All settings. -/
structure Settings where
  /-- The file that settings were read from. -/
  configPath : Option String := none
  verbose : Bool := false
  logJson : Bool := false
  checks : CheckSettings := {}
  audit : AuditSettings := {}
  deriving DecidableEq

end FieldRules
