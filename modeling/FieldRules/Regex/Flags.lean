import FieldRules.Regex.Pattern

/-!
What can be switched on and off inside a regular expression.
-/

namespace FieldRules.Regex

/-- What is switched on inside a regular expression. -/
structure Flags where
  ignoreCase : Bool := false
  lines : Bool := false
  dotAll : Bool := false
  spaced : Bool := false
  ascii : Bool := false
  unicode : Bool := false
  plainOnly : Bool := false
  deriving DecidableEq

namespace Flags

/-- The flag of a letter alone. -/
def ofLetter? : Char → Option Flags
  | 'i' => some { ignoreCase := true }
  | 'm' => some { lines := true }
  | 's' => some { dotAll := true }
  | 'x' => some { spaced := true }
  | 'a' => some { ascii := true }
  | 'u' => some { unicode := true }
  | 't' => some { plainOnly := true }
  | _ => none

/-- Flags combined one by one. -/
def zip (f : Bool → Bool → Bool) (a b : Flags) : Flags where
  ignoreCase := f a.ignoreCase b.ignoreCase
  lines := f a.lines b.lines
  dotAll := f a.dotAll b.dotAll
  spaced := f a.spaced b.spaced
  ascii := f a.ascii b.ascii
  unicode := f a.unicode b.unicode
  plainOnly := f a.plainOnly b.plainOnly

/-- The flags of both. -/
def union : Flags → Flags → Flags :=
  zip (· || ·)

/-- Whether a repertoire of letters is chosen. -/
def choosesLetters (f : Flags) : Bool :=
  f.ascii || f.unicode

/-- The flags inside a group that switches some on and others off. A choice of letters replaces an
earlier one. -/
def within (f on off : Flags) : Flags :=
  let base := if on.choosesLetters then { f with ascii := false, unicode := false } else f
  zip (fun a b => a && !b) (base.union on) off

/-- How letters compare under the flags. -/
def folding (f : Flags) : Folding :=
  if f.ignoreCase then if f.ascii then .ascii else .full else .exact

end Flags

end FieldRules.Regex
