import FieldRules.Entries
import FieldRules.Settings.Files

/-!
The file of settings: the one that the environment names, or else the nearest one above a directory.
-/

namespace FieldRules

/-- The variables of a process. Of variables with one name the last one counts. -/
abbrev Environment := List (String × String)

/-- The value of a variable. -/
def Environment.get? (env : Environment) (name : String) : Option String :=
  Entries.get? (Entries.ofPairs env) name

namespace Settings

/-- The name of a file of settings. -/
def fileName : String :=
  "fieldrules.toml"

/-- The variable that names the file of settings. -/
def fileVariable : String :=
  "FIELDRULES_CONFIG"

/-- The nearest file of settings in a directory or above it, which is at most so deep. -/
def findUp? (t : FileTree) : Nat → Location → Option Location
  | depth, place =>
    if (t.textAt? (place ++ [fileName])).isSome then some (place ++ [fileName])
    else
      match depth with
      | 0 => none
      | depth + 1 => findUp? t depth place.dropLast

/-- The file of settings for a start directory. One that the environment names must be there, and
no other one is looked for. -/
def discover? (t : FileTree) (env : Environment) (here : Location) (start : Option Location) :
    Option FilePath :=
  match env.get? fileVariable with
  | none | some "" => do
    let start ← start
    let found ← findUp? t start.length start
    return ⟨.root, found⟩
  | some s => if (t.read? here (t.path s)).isSome then some (t.path s) else none

end Settings

end FieldRules
