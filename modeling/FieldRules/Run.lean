import FieldRules.Rule.Sentence
import FieldRules.Rule.Target
import FieldRules.Trigger

/-!
Running rules over fields, in one pass and in order. A rule sees what the rules before it did, and
none is evaluated again.
-/

namespace FieldRules

/-- What rules have done so far. -/
structure Outcome where
  /-- The fields as they are now. -/
  fields : List Field
  /-- Under the name of each field that a rule was enforced on, the last such rule. -/
  reasons : Entries String := []
  changes : List Change := []
  deriving DecidableEq

/-- The evaluation of the conditions of a rule. -/
structure Evaluation where
  /-- The names of the targets. -/
  targets : String
  met : Bool
  conditions : List Clause
  deriving DecidableEq

/-- The evaluation of a rule with its result. -/
def Evaluation.of (r : Rule) (met : Bool) : Evaluation :=
  ⟨Text.join ", " (r.targets.map (·.name)), met, r.conditionList⟩

namespace Outcome

/-- The outcome after a target of a rule has been enforced on the field at a position. -/
def enforceAt (r : Rule) (target : Clause) (o : Outcome) (i : Nat) : Except Fault Outcome :=
  match o.fields[i]? with
  | none => .ok o
  | some f => do
    let g ← target.enforceOn f
    let reason := r.sentenceFor target.name
    return {
      fields := o.fields.set i g
      reasons := Entries.insert o.reasons f.name reason
      changes := o.changes ++ f.changesTo g reason }

/-- The outcome after a target of a rule has been enforced on every field that it reaches. -/
def enforceTarget (r : Rule) (o : Outcome) (target : Clause) : Except Fault Outcome :=
  (Field.reach (o.fields.map (·.name)) target.name).foldlM (enforceAt r target) o

/-- The outcome after all targets of a rule have been enforced. -/
def enforce (o : Outcome) (r : Rule) : Except Fault Outcome :=
  r.targets.foldlM (enforceTarget r) o

end Outcome

/-- A run of rules: the evaluations that took place, also when the run was broken off, and the
outcome. -/
structure Run where
  evaluations : List Evaluation
  outcome : Except Fault Outcome

namespace Run

/-- The run of the rules that are left. -/
def after (o : Outcome) : List Rule → Run
  | [] => ⟨[], .ok o⟩
  | r :: rs =>
    match r.applies o.fields with
    | .error fault => ⟨[], .error fault⟩
    | .ok false =>
      let rest := after o rs
      ⟨.of r false :: rest.evaluations, rest.outcome⟩
    | .ok true =>
      match o.enforce r with
      | .error fault => ⟨[.of r true], .error fault⟩
      | .ok o =>
        let rest := after o rs
        ⟨.of r true :: rest.evaluations, rest.outcome⟩

/-- The run of rules over fields, after an event. -/
def of (fields : List Field) (rules : List Rule) (trigger : Option Trigger)
    (before : Option (List Field)) : Run :=
  after { fields, changes := (trigger.map fun t => t.changes before fields).getD [] } rules

end Run

/-- The outcome of rules that are run over fields without any event before. -/
def Rule.apply (fields : List Field) (rules : List Rule) : Except Fault Outcome :=
  (Run.of fields rules none none).outcome

end FieldRules
