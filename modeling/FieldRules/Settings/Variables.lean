import FieldRules.Json.Decode
import FieldRules.Settings.Discovery
import FieldRules.Settings.Layers
import FieldRules.Text.Sigma

/-!
Settings from the variables of the environment, whose names are taken in any case. The variable of a
section holds JSON; those of its keys have names of their own, with two underscores before the key.
-/

namespace FieldRules.Settings

/-- How the name of a variable starts. -/
def variableStart : String :=
  "fieldrules_"

/-- What stands between a section and its keys in the name of a variable. -/
def sectionMark : String :=
  "__"

/-- The settings that are no sections. -/
def plainKeys : List String :=
  ["verbose", "log_json"]

/-- The sections with their keys. -/
def sections : List (String × List String) := [
  ("validation", ["filter_contrapositives", "suggest_merges"]),
  ("audit", ["enabled", "load_plugins"])]

/-- The variables under their names in lower case. -/
def lowered (env : Environment) : Entries String :=
  Entries.ofPairs ((Entries.ofPairs env).map fun (name, value) => (Text.lower name, value))

/-- Puts a text at the end of a path of keys. A text that stands in the way stays. -/
def putText : List String → String → Entries Value → Entries Value
  | [], _, es => es
  | [key], s, es => Entries.insert es key (.text s)
  | key :: keys, s, es =>
    match Entries.get? es key with
    | none => Entries.insert es key (.map (putText keys s []))
    | some (.map inner) => Entries.insert es key (.map (putText keys s inner))
    | some _ => es

/-- The keys of a section that have variables of their own. -/
def keyVariables (vars : Entries String) (part : String) : Entries Value :=
  let start := variableStart ++ part ++ sectionMark
  vars.foldl (fun es (name, s) =>
    if Text.startsWith start name then
      putText (Text.split sectionMark (String.ofList (name.toList.drop start.length))) s es
    else es) []

/-- The key of a section that a name is in any case, or else the name itself. -/
def keyNamed (keys : List String) (name : String) : String :=
  (keys.find? fun key => key == Text.lower name).getD name

/-- A section under its keys as they are spelt. -/
def respell (keys : List String) : Value → Value
  | .map es => .map (Entries.ofPairs (es.map fun (name, v) => (keyNamed keys name, v)))
  | v => v

/-- A section from its variables, if there are any. What is no JSON is an error, and null is
nothing. -/
def sectionVariable (vars : Entries String) (part : String) : Option (Option Value) :=
  let own := keyVariables vars part
  match Entries.get? vars (variableStart ++ part) with
  | none => some (if own.isEmpty then none else some (.map own))
  | some s =>
    match Json.decode s with
    | none => none
    | some .null => some none
    | some (.map es) => some (some (.map (lay es own)))
    | some v => some (some v)

/-- The sections that variables give, unless one of them is no JSON. -/
def sectionVariables (vars : Entries String) : Option (Entries Value) := do
  let found ← sections.mapM fun (part, keys) => do
    let v ← sectionVariable vars part
    return v.map fun v => (part, respell keys v)
  return found.filterMap id

/-- The settings that variables give, unless a section is no JSON. -/
def ofVariables (env : Environment) : Option (Entries Value) := do
  let vars := lowered env
  let plain := plainKeys.filterMap fun key => do
    let s ← Entries.get? vars (variableStart ++ key)
    return (key, Value.text s)
  return plain ++ (← sectionVariables vars)

end FieldRules.Settings
