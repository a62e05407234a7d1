import FieldRules.Entries
import FieldRules.Text.Split
import FieldRules.Value

/-!
Lines of a log, and which of them are written. Nothing is written until the log is set up.
-/

namespace FieldRules

/-- How grave a line of a log is. -/
inductive Level
  | debug
  | info
  | warning
  | error
  | critical
  deriving DecidableEq

namespace Level

/-- The name of a level. -/
def name : Level → String
  | debug => "debug"
  | info => "info"
  | warning => "warning"
  | error => "error"
  | critical => "critical"

/-- The number of a level. -/
def rank : Level → Nat
  | debug => 10
  | info => 20
  | warning => 30
  | error => 40
  | critical => 50

/-- All levels. -/
def all : List Level :=
  [debug, info, warning, error, critical]

end Level

/-- A line of a log. -/
structure LogLine where
  /-- The name of the part that the line comes from. -/
  logger : String
  level : Level
  event : String
  details : Entries Value := []
  deriving DecidableEq

/-- The record of a line. What the line says of itself goes before its details. -/
def LogLine.toRecord (l : LogLine) : Value :=
  .map (Entries.overlay l.details
    [("event", .text l.event), ("level", .text l.level.name), ("logger", .text l.logger)])

/-- How the log is set up. -/
structure Logging where
  /-- Whether all lines are written, and not only warnings and worse. -/
  verbose : Bool := false
  /-- Whether lines are written as JSON, and not for a console. -/
  json : Bool := false
  deriving DecidableEq

namespace Logging

/-- The part that all lines of the library come from, and the name of what writes them. -/
def package : String :=
  "fieldrules"

/-- The lowest level that is written. -/
def threshold (l : Logging) : Level :=
  if l.verbose then .debug else .warning

/-- Whether a part belongs to the library. -/
def covers (logger : String) : Bool :=
  logger == package || Text.startsWith (package ++ ".") logger

/-- Whether a line is written. -/
def writes (l : Logging) (line : LogLine) : Bool :=
  covers line.logger && decide (l.threshold.rank ≤ line.level.rank)

/-- The lines that are written. -/
def written (setup : Option Logging) (lines : List LogLine) : List LogLine :=
  match setup with
  | none => []
  | some l => lines.filter l.writes

end Logging

end FieldRules
