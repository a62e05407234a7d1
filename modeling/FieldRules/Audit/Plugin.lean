import FieldRules.Run
import FieldRules.Text.Split

/-!
Plugins: what is told of the runs of rules, and who listens to it.
-/

namespace FieldRules

/-- The occasions on which plugins are called. -/
inductive Hook
  | fieldChanges
  | ruleEvaluation
  deriving DecidableEq

/-- The name of a hook. -/
def Hook.name : Hook → String
  | .fieldChanges => "post_field_changes"
  | .ruleEvaluation => "post_rule_evaluation"

/-- All hooks. -/
def Hook.all : List Hook :=
  [.fieldChanges, .ruleEvaluation]

/-- What plugins are told. -/
inductive Notice
  | evaluation (evaluation : Evaluation)
  | changes (trigger : Trigger) (changes : List Change)
  deriving DecidableEq

/-- The hook through which a notice goes. -/
def Notice.hook : Notice → Hook
  | .evaluation _ => .ruleEvaluation
  | .changes _ _ => .fieldChanges

/-- What a plugin does on a hook. -/
structure Reaction where
  /-- The name of its method, where that is not the name of the hook. -/
  method : Option String := none
  /-- Whether it asks only for what the hook offers. -/
  fits : Bool := true
  /-- Whether it asks for the list of changes alone. -/
  changesOnly : Bool := false
  /-- Whether it fails once it was told. -/
  fails : Bool := false
  deriving DecidableEq

/-- What stands for a plugin. -/
inductive Plugin.Form
  /-- The plugin itself. -/
  | object
  /-- What plugins can be made from, and whether making one succeeds. -/
  | maker (succeeds : Bool)
  deriving DecidableEq

/-- A plugin. -/
structure Plugin where
  /-- Tells plugins apart. -/
  id : Nat
  /-- Tells apart those that were made from one maker; a maker has nought. -/
  copy : Nat := 0
  /-- What the calls of the plugin are known by. -/
  label : String
  form : Plugin.Form := .object
  onChanges : Option Reaction := none
  onEvaluation : Option Reaction := none
  /-- The names of methods that are marked for hooks that are never called. -/
  idle : List String := []
  deriving DecidableEq

namespace Plugin

/-- What a plugin does on a hook, if anything. -/
def reaction? (p : Plugin) : Hook → Option Reaction
  | .fieldChanges => p.onChanges
  | .ruleEvaluation => p.onEvaluation

/-- The name of the method that a plugin has for a hook, if any. -/
def methodFor? (p : Plugin) (h : Hook) : Option String :=
  (p.reaction? h).map fun r => r.method.getD h.name

/-- The names of the methods that are marked for hooks. -/
def methods (p : Plugin) : List String :=
  Hook.all.filterMap p.methodFor? ++ p.idle

/-- Whether a marked method is found. The search passes over names that start with an underscore. -/
def isFound (method : String) : Bool :=
  !Text.startsWith "_" method

/-- Whether methods are found that are marked for hooks. -/
def showsMethods (p : Plugin) : Bool :=
  p.methods.any isFound

/-- The hooks in the order in which a plugin is connected to them, which is that of the names of its
methods. -/
def hooks (p : Plugin) : List Hook :=
  match p.methodFor? .fieldChanges, p.methodFor? .ruleEvaluation with
  | some m, some n => if n < m then [.ruleEvaluation, .fieldChanges] else Hook.all
  | _, _ => Hook.all

/-- Whether a plugin stands for itself. -/
def isObject (p : Plugin) : Bool :=
  p.form == .object

end Plugin

/-- A notice that reached a plugin. -/
structure Delivery where
  plugin : Plugin
  notice : Notice
  deriving DecidableEq

/-- Tells plugins a notice one after another, up to the first that fails. A maker fails without
being told. The result says whether one has failed. -/
def Notice.deliver (n : Notice) : List Plugin → List Delivery × Bool
  | [] => ([], false)
  | p :: ps =>
    match p.reaction? n.hook with
    | none => deliver n ps
    | some r =>
      if !p.isObject then ([], true)
      else if r.fails then ([⟨p, n⟩], true)
      else (⟨p, n⟩ :: (deliver n ps).1, (deliver n ps).2)

end FieldRules
