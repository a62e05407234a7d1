import FieldRules.Record.Settings
import FieldRules.Record.Template
import FieldRules.Settings.Sources
import FieldRules.Toml.Document

/-!
Loading settings. What is given outright stands over the variables of the environment, those over
the file, and the file over what holds when nothing is set.
-/

namespace FieldRules

open Record

namespace Settings

/-- Why settings cannot be loaded. -/
inductive LoadError
  /-- The file at a path is no TOML. -/
  | malformedFile (path : String)
  | fault (fault : Fault)
  /-- The variable of a section is no JSON. -/
  | unreadableVariable
  | record (issues : List Issue)
  deriving DecidableEq

/-- The names of all settings. -/
def keys : List String :=
  ["config_path"] ++ plainKeys ++ sections.map (·.1)

/-- Settings from their record. -/
def read (lib : Library := .lax) : Coercion Settings :=
  lib.record fun es =>
    (fun path verbose logJson checks audit _ => Settings.mk path verbose logJson checks audit)
      <$> lib.part es "config_path" [] none (lib.optional lib.text)
      <*> lib.part es "verbose" [] false lib.bool
      <*> lib.part es "log_json" [] false lib.bool
      <*> lib.part es "validation" [] {} (CheckSettings.read lib)
      <*> lib.part es "audit" [] {} (AuditSettings.read lib)
      <*> lib.only keys es

/-- The record of settings. -/
def toRecord (lib : Library := .lax) (s : Settings) : Value :=
  lib.dump [("config_path", .ofOption s.configPath), ("verbose", .bool s.verbose),
    ("log_json", .bool s.logJson), ("validation", s.checks.toRecord lib),
    ("audit", s.audit.toRecord lib)]

/-- The table of a file of settings, empty when there is no file. -/
def tableOf (t : FileTree) (here : Location) (path : Option FilePath) :
    Except LoadError (Entries Value) :=
  match path.bind fun p => (t.read? here p).map fun s => (p, s) with
  | none => .ok []
  | some (p, s) =>
    match Toml.decode s with
    | .ok table => .ok table
    | .error .malformed => .error (.malformedFile (t.pathText p))
    | .error (.fault fault) => .error (.fault fault)

/-- What is given outright: the path of the file, and other settings. -/
def given (t : FileTree) (path : Option FilePath) (overrides : Entries Value) : Entries Value :=
  Entries.overlay [("config_path", .ofOption (path.map t.pathText))] overrides

/-- Settings from a file, the variables of the environment and what is given outright. -/
def loadFrom (lib : Library) (src : Sources) (t : FileTree) (env : Environment) (here : Location)
    (path : Option FilePath) (overrides : Entries Value) : Except LoadError Settings := do
  let table ← tableOf t here path
  match src.ofVariables env with
  | none => .error .unreadableVariable
  | some named =>
    match read lib (.map (src.lay table (src.lay named (given t path overrides)))) with
    | .accepted s => .ok s
    | .refused issues => .error (.record issues)

/-- Settings from the file at a path, if it is there, or from the one that is found from a start
directory. -/
def load (t : FileTree) (env : Environment) (here : Location) (start : Option Location)
    (configPath : Option FilePath) (overrides : Entries Value) (lib : Library := .lax)
    (src : Sources := .usual) : Except LoadError Settings :=
  let path := match configPath with
    | some p => if (t.read? here p).isSome then some p else none
    | none => discover? t env here start
  loadFrom lib src t env here path overrides

end Settings

end FieldRules
