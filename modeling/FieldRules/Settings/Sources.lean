import FieldRules.Settings.Layers
import FieldRules.Settings.Variables

/-!
What is left to the library that gathers settings: how the mappings of two sources become one, and
what the variables of the environment give.
-/

namespace FieldRules.Settings

/-- A library that gathers settings from several sources. -/
structure Sources where
  /-- The entries of an upper source over those of a lower one. -/
  lay : Entries Value → Entries Value → Entries Value
  /-- The settings that variables give, unless a section is no JSON. -/
  ofVariables : Environment → Option (Entries Value)

/-- A library that lays mappings over each other key by key, and takes names in any case. -/
def Sources.usual : Sources where
  lay := Settings.lay
  ofVariables := Settings.ofVariables

end FieldRules.Settings
