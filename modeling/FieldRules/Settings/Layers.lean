import FieldRules.Entries
import FieldRules.Value

/-!
Layers of settings. Where an upper layer and a lower one both have a mapping, the mappings are laid
over each other; otherwise the upper layer decides.
-/

namespace FieldRules.Settings

mutual

/-- A value over what a lower layer may have in its place. -/
def layValue (lower : Option Value) : Value → Value
  | .map es =>
    match lower with
    | some (.map fs) => .map (lay fs es)
    | _ => .map es
  | v => v

/-- The entries of an upper layer over those of a lower one. -/
def lay (lower : Entries Value) : List (String × Value) → Entries Value
  | [] => lower
  | (k, v) :: es => lay (Entries.insert lower k (layValue (Entries.get? lower k) v)) es

end

end FieldRules.Settings
