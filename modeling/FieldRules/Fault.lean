/-!
The reasons for which an operation on values gives no answer.
-/

namespace FieldRules

/-- Why an operation gives no answer. -/
inductive Fault
  /-- A numeral is too long to be read or written. -/
  | numeralTooLong
  /-- A regular expression asks for more repetitions than can be counted. -/
  | repetitionTooLarge
  /-- A regular expression asks for two repertoires of letters at once. -/
  | conflictingFlags
  /-- What is nested is too deep to be gone through. -/
  | nestedTooDeep
  deriving DecidableEq

end FieldRules
