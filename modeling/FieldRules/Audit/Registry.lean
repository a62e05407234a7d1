import FieldRules.Audit.Log
import FieldRules.Audit.Plugin

/-!
The register of plugins. What plugins are made from is replaced by plugins when they are looked for.
What becomes of a plugin that does not fit, and how plugins are called, is left to the library that
holds them.
-/

namespace FieldRules

/-- Why a register refuses. -/
inductive RegistryError
  /-- The name or the plugin is registered. -/
  | taken
  /-- The plugin asks for something that a hook does not offer. -/
  | misfit
  /-- The plugin is not registered. -/
  | unknown
  deriving DecidableEq

/-- Something installed that holds a plugin. -/
structure EntryPoint where
  group : String
  name : String
  plugin : Plugin
  deriving DecidableEq

/-- A register of plugins. -/
structure Registry where
  /-- The plugins under their names, in the order in which they came. -/
  plugins : List (String × Plugin) := []
  /-- Those that are connected to the hook for changes. -/
  changeListeners : List Plugin := []
  /-- Those that are connected to the hook for evaluations. -/
  evaluationListeners : List Plugin := []
  /-- Whether installed plugins have been looked for. -/
  loaded : Bool := false
  /-- The number of plugins that were made from makers. -/
  made : Nat := 0
  deriving DecidableEq

namespace Registry

/-- The part that the lines of the register come from. -/
def logger : String :=
  "fieldrules.plugins.manager"

/-- The group of the entry points that are looked for. -/
def entryGroup : String :=
  "fieldrules.plugins"

/-- The names of the plugins. -/
def names (r : Registry) : List String :=
  r.plugins.map (·.1)

/-- The name of a plugin. -/
def nameOf? (r : Registry) (p : Plugin) : Option String :=
  (r.plugins.find? fun e => e.2 == p).map (·.1)

/-- The plugins that are connected to a hook, the last one first. -/
def listeners (r : Registry) : Hook → List Plugin
  | .fieldChanges => r.changeListeners
  | .ruleEvaluation => r.evaluationListeners

/-- The register without a plugin. -/
def forget (r : Registry) (p : Plugin) : Registry :=
  { r with
    plugins := r.plugins.filter fun e => e.2 != p
    changeListeners := r.changeListeners.filter (· != p)
    evaluationListeners := r.evaluationListeners.filter (· != p) }

/-- The register with a plugin connected to a hook. -/
def connect (r : Registry) (p : Plugin) : Hook → Registry
  | .fieldChanges => { r with changeListeners := p :: r.changeListeners }
  | .ruleEvaluation => { r with evaluationListeners := p :: r.evaluationListeners }

/-- Connects a plugin to hooks one after another, as long as it fits them. -/
def connectAll (p : Plugin) : List Hook → Registry → Registry × Bool
  | [], r => (r, true)
  | h :: hs, r =>
    match p.reaction? h with
    | none => connectAll p hs r
    | some reaction => if reaction.fits then connectAll p hs (r.connect p h) else (r, false)

end Registry

/-- What a register leaves to the library that holds its plugins and calls them. -/
structure Host where
  /-- What is left of a register in which a plugin was found not to fit a hook. By then it has been
  entered under its name, and connected to the hooks before. -/
  afterMisfit : Registry → Plugin → Registry
  /-- Tells plugins a notice: what reached whom, and whether one of them has failed. -/
  call : Notice → List Plugin → List Delivery × Bool

/-- A library that takes out again what does not fit, and whose calls end with the first plugin that
fails. -/
def Host.usual : Host where
  afterMisfit := Registry.forget
  call := Notice.deliver

namespace Registry

/-- Registers a plugin under a name. -/
def add (host : Host) (r : Registry) (name : String) (p : Plugin) :
    Registry × Option RegistryError :=
  if name ∈ r.names ∨ (r.nameOf? p).isSome then (r, some .taken)
  else
    match connectAll p p.hooks { r with plugins := r.plugins ++ [(name, p)] } with
    | (r, true) => (r, none)
    | (r, false) => (host.afterMisfit r p, some .misfit)

/-- A line of the register. -/
def line (level : Level) (event : String) : LogLine :=
  { logger, level, event }

/-- Registers a plugin under a name, and notes it. -/
def register (r : Registry) (name : String) (p : Plugin) (host : Host := .usual) :
    Registry × List LogLine × Option RegistryError :=
  match r.add host name p with
  | (r, none) => (r, [line .debug ("Registered plugin: " ++ name)], none)
  | (r, some error) => (r, [], some error)

/-- Takes a plugin out. -/
def unregister (r : Registry) (p : Plugin) : Registry × Option RegistryError :=
  if (r.nameOf? p).isSome then (r.forget p, none) else (r, some .unknown)

/-- Registers the plugins of entry points whose names are free. The first one that is refused ends
it. -/
def load (host : Host) (r : Registry) : List EntryPoint → Registry × Option RegistryError
  | [] => (r, none)
  | e :: es =>
    if e.group ≠ entryGroup ∨ e.name ∈ r.names then load host r es
    else
      match r.add host e.name e.plugin with
      | (r, none) => load host r es
      | (r, some error) => (r, some error)

/-- A plugin from its maker. -/
def madeFrom (r : Registry) (p : Plugin) : Plugin :=
  { p with form := .object, copy := r.made + 1 }

/-- Replaces makers whose marked methods are found by plugins made from them, which become the last
ones. Those from which none can be made are taken out. -/
def make (host : Host) (r : Registry) :
    List (String × Plugin) → Registry × List LogLine × Option RegistryError
  | [] => (r, [], none)
  | (name, p) :: rest =>
    match p.form, p.showsMethods with
    | .maker true, true =>
      match { r.forget p with made := r.made + 1 }.add host name (r.madeFrom p) with
      | (r, none) =>
        let (r, lines, error) := make host r rest
        (r, line .debug ("Instantiated entry-point plugin: " ++ name) :: lines, error)
      | (r, some error) => (r, [], some error)
    | .maker false, true =>
      let (r, lines, error) := make host (r.forget p) rest
      (r, line .warning ("Failed to instantiate entry-point plugin " ++ name) :: lines, error)
    | _, _ => make host r rest

/-- Looks for installed plugins. -/
def discover (r : Registry) (installed : List EntryPoint) (host : Host := .usual) :
    Registry × List LogLine × Option RegistryError :=
  match r.load host installed with
  | (r, some error) => (r, [], some error)
  | (r, none) =>
    match r.make host r.plugins with
    | (r, lines, none) => ({ r with loaded := true }, lines, none)
    | (r, lines, some error) => (r, lines, some error)

/-- The names of the plugins in ascending order. -/
def sortedNames (r : Registry) : List String :=
  r.names.mergeSort fun a b => decide (a ≤ b)

end Registry

end FieldRules
