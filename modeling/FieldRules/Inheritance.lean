import FieldRules.Template
import FieldRules.Text.Split

/-!
Sets of rules that extend each other. To resolve a set is to put the rules of all its ancestors
before its own. A parent that is not there ends the way up; a way that comes back to a set has no
end, and nothing is resolved.
-/

namespace FieldRules

/-- What a set of rules is asked for by. -/
inductive RuleSetRef
  | name (name : String)
  | index (i : Int)
  /-- A truth value, in place of the positions 0 and 1. -/
  | flag (b : Bool)
  deriving DecidableEq

/-- A way up that comes back to a name: all names on it, and again the one that it comes back to. -/
structure InheritanceCycle where
  chain : List String
  deriving DecidableEq

/-- The message on a way up that has no end. -/
def InheritanceCycle.message (c : InheritanceCycle) : String :=
  "Circular inheritance detected in ruleset: " ++ c.chain.getLast?.getD ""

namespace Template

/-- The first set of rules with a name. -/
def ruleSet? (t : Template) (name : String) : Option RuleSet :=
  t.ruleSets.find? fun s => s.name == name

/-- The position of the first set of rules with a name. -/
def ruleSetIndex? (t : Template) (name : String) : Option Nat :=
  t.ruleSets.findIdx? fun s => s.name == name

/-- The set of rules at a position. -/
def ruleSetAt? (t : Template) (i : Int) : Option RuleSet :=
  if 0 ≤ i then t.ruleSets[i.toNat]? else none

/-- The set of rules that is asked for. -/
def lookUp (t : Template) : RuleSetRef → Option RuleSet
  | .name name => t.ruleSet? name
  | .index i => t.ruleSetAt? i
  | .flag b => t.ruleSets[b.toNat]?

/-- The sets of rules that extend the one of a name. -/
def childrenOf (t : Template) (name : String) : List RuleSet :=
  t.ruleSets.filter fun s => s.parent == some name

end Template

namespace RuleSet

/-- The name of the set that a set extends. The empty name is no name. -/
def parentName? (s : RuleSet) : Option String :=
  s.parent.filter (· != "")

end RuleSet

namespace Template

/-- The set that a set extends, if there is one of that name. -/
def parentOf? (t : Template) (s : RuleSet) : Option RuleSet :=
  s.parentName?.bind t.ruleSet?

/-- The way up from a set, given the sets before it. There are no more sets on it than `room`. -/
def ancestry (t : Template) : Nat → List RuleSet → RuleSet → Except InheritanceCycle (List RuleSet)
  | 0, passed, s => .error ⟨passed.map (·.name) ++ [s.name]⟩
  | room + 1, passed, s =>
    if s.name ∈ passed.map (·.name) then .error ⟨passed.map (·.name) ++ [s.name]⟩
    else
      match t.parentOf? s with
      | none => .ok (passed ++ [s])
      | some parent => ancestry t room (passed ++ [s]) parent

/-- The rules of a set after those of all its ancestors. A set that is not there has none. -/
def resolve (t : Template) (ref : RuleSetRef) : Except InheritanceCycle (List Rule) :=
  match t.lookUp ref with
  | none => .ok []
  | some s => (ancestry t t.ruleSets.length [] s).map fun sets => sets.reverse.flatMap (·.rules)

/-- The rules of a set alone. -/
def ownRules (t : Template) (ref : RuleSetRef) : List Rule :=
  ((t.lookUp ref).map (·.rules)).getD []

/-- What marks a name that a way up comes back to. -/
def circularMark : String :=
  " (circular!)"

/-- The names from the root down to a set, given the names below it. A name that was seen below is
marked, and nothing is above it. -/
def lineageAbove (t : Template) : Nat → List String → RuleSet → List String
  | 0, _, s => [s.name ++ circularMark]
  | room + 1, seen, s =>
    if s.name ∈ seen then [s.name ++ circularMark]
    else
      match t.parentOf? s with
      | none => [s.name]
      | some parent => lineageAbove t room (s.name :: seen) parent ++ [s.name]

/-- The names from the root ancestor down to a set. -/
def lineage (t : Template) (ref : RuleSetRef) : List String :=
  match t.lookUp ref with
  | none => []
  | some s => lineageAbove t t.ruleSets.length [] s

/-- What is wrong with the way up from a set. -/
inductive InheritanceError
  | missingParent (name parent : String)
  | selfExtending (name : String)
  /-- A way that comes back to its start: its names, with the first one again at the end. -/
  | circular (path : List String)
  deriving DecidableEq

/-- The message on a way up. -/
def InheritanceError.message : InheritanceError → String
  | .missingParent name parent =>
    "RuleSet \"" ++ name ++ "\" extends non-existent ruleset \"" ++ parent ++ "\""
  | .selfExtending name => "RuleSet \"" ++ name ++ "\" cannot extend itself"
  | .circular path => "Circular inheritance detected: " ++ Text.join " → " path

/-- The first loop that is reached from a name by way of the names that sets extend, given the
names before it. The empty name leads nowhere. -/
def loopFrom? (t : Template) : Nat → List String → String → Option (List String)
  | 0, _, _ => none
  | room + 1, path, name =>
    if name = "" then none
    else if name ∈ path then some (path.dropWhile (· != name) ++ [name])
    else
      match (t.ruleSet? name).bind (·.parent) with
      | none => none
      | some parent => loopFrom? t room (path ++ [name]) parent

/-- What is wrong with the way up from a set, if anything is. -/
def inheritanceError? (t : Template) (s : RuleSet) : Option InheritanceError :=
  match s.parentName? with
  | none => none
  | some parent =>
    if (t.ruleSet? parent).isNone then some (.missingParent s.name parent)
    else if parent = s.name then some (.selfExtending s.name)
    else (loopFrom? t (t.ruleSets.length + 2) [] s.name).map .circular

/-- The messages on all ways up, each once. -/
def inheritanceErrors (t : Template) : List String :=
  (t.ruleSets.filterMap fun s => (t.inheritanceError? s).map (·.message)).eraseDups

end Template

end FieldRules
