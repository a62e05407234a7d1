import FieldRules.Record.Library
import FieldRules.Settings

/-!
Settings as records.
-/

namespace FieldRules

open Record

namespace CheckSettings

/-- Settings of the checks from their record. -/
def read (lib : Library := .lax) : Coercion CheckSettings :=
  lib.record fun es =>
    CheckSettings.mk <$> lib.part es "filter_contrapositives" [] true lib.bool
      <*> lib.part es "suggest_merges" [] true lib.bool

/-- The record of the settings of the checks. -/
def toRecord (lib : Library := .lax) (s : CheckSettings) : Value :=
  lib.dump [("filter_contrapositives", .bool s.filterContrapositives),
    ("suggest_merges", .bool s.suggestMerges)]

end CheckSettings

namespace AuditSettings

/-- Settings of the audit from their record. -/
def read (lib : Library := .lax) : Coercion AuditSettings :=
  lib.record fun es =>
    AuditSettings.mk <$> lib.part es "enabled" [] true lib.bool
      <*> lib.part es "load_plugins" [] false lib.bool

/-- The record of the settings of the audit. -/
def toRecord (lib : Library := .lax) (s : AuditSettings) : Value :=
  lib.dump [("enabled", .bool s.enabled), ("load_plugins", .bool s.loadPlugins)]

end AuditSettings

end FieldRules
