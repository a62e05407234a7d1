import FieldRules.Inheritance
import FieldRules.Record.Issue
import FieldRules.Service.Reply
import FieldRules.Text.Sigma
import FieldRules.Value.Display

/-!
The sets of rules that an operation works on. Names and tags are taken in any case.
-/

namespace FieldRules

/-- Why there is no result at all. -/
inductive Failure
  | fault (fault : Fault)
  | record (issues : List Record.Issue)
  deriving DecidableEq

/-- What an operation works on as it is quoted in a message. -/
def RuleSetRef.inspect : RuleSetRef → Except Fault String
  | .name s => (Value.text s).inspect
  | .index i => (Value.int i).inspect
  | .flag b => (Value.bool b).inspect

/-- Why there are no rules to work with. -/
inductive Refusal
  | notFound (ref : RuleSetRef)
  | circular (cycle : InheritanceCycle)
  deriving DecidableEq

/-- A set of rules with the rules that it resolves to. -/
structure Resolution where
  ruleSet : RuleSet
  rules : List Rule
  deriving DecidableEq

/-- A list of texts as a value. -/
def Value.ofTexts (texts : List String) : Value :=
  .list (texts.map .text)

namespace Template

/-- The names of the sets of rules. -/
def ruleSetNames (t : Template) : List String :=
  t.ruleSets.map (·.name)

/-- The tags of the sets of rules, each once, in ascending order. -/
def tags (t : Template) : List String :=
  (t.ruleSets.flatMap (·.tags)).eraseDups.mergeSort fun a b => decide (a ≤ b)

/-- The position of what is asked for, a name being taken in any case. -/
def position? (t : Template) : RuleSetRef → Option Nat
  | .name name => t.ruleSets.findIdx? fun s => Text.lower s.name == Text.lower name
  | .index i => if 0 ≤ i ∧ i < t.ruleSets.length then some i.toNat else none
  | .flag b => if b.toNat < t.ruleSets.length then some b.toNat else none

/-- The set of rules that is asked for, with its rules and those of its ancestors. -/
def resolution (t : Template) (ref : RuleSetRef) : Except Refusal Resolution :=
  match (t.position? ref).bind fun i => (t.ruleSets[i]?).map fun s => (i, s) with
  | none => .error (.notFound ref)
  | some (i, ruleSet) =>
    match t.resolve (.index i) with
    | .ok rules => .ok ⟨ruleSet, rules⟩
    | .error cycle => .error (.circular cycle)

/-- The sets of rules that are asked for, by reference or else by tag. Without both these are
all. -/
def select (t : Template) : Option RuleSetRef → Option String → List RuleSet
  | some (.name name), _ => t.ruleSets.filter fun s => Text.lower s.name == Text.lower name
  | some ref, _ => (t.lookUp ref).toList
  | none, some tag => t.ruleSets.filter fun s => s.tags.any fun u => Text.lower u == Text.lower tag
  | none, none => t.ruleSets

/-- The reply of an operation that had no rules to work with. -/
def refuse (t : Template) (operation : String) : Refusal → Except Failure Reply
  | .notFound ref => do
    let quoted ← ref.inspect.mapError .fault
    return { ok := false, operation, problem := some {
      code := "NOT_FOUND"
      message := "RuleSet " ++ quoted ++ " not found"
      detail := [("available", .ofTexts t.ruleSetNames)] } }
  | .circular cycle =>
    .ok { ok := false, operation, problem := some {
      code := "INHERITANCE_CYCLE"
      message := cycle.message
      detail := [("chain", .ofTexts cycle.chain)] } }

end Template

end FieldRules
