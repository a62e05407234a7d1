import FieldRules.Change
import FieldRules.Record.Library
import FieldRules.Template

/-!
Fields, rules and templates as records: how they are read, and how they are written with every key.
What is written is read back as it was.
-/

namespace FieldRules

open Record

/-- A text that may be absent. -/
def Value.ofOption : Option String → Value
  | some s => .text s
  | none => .null

namespace Field

/-- A field from its record. -/
def read (lib : Library := .lax) : Coercion Field :=
  lib.record fun es =>
    Field.mk <$> lib.need es "name" lib.text
      <*> lib.part es "value" [] (.text "") lib.value
      <*> lib.part es "info" [] "" lib.text
      <*> lib.part es "example" [] "" lib.text
      <*> lib.part es "range" [] "" lib.text
      <*> lib.part es "link" [] none (lib.optional lib.text)
      <*> lib.part es "checked" [] none (lib.optional lib.bool)

/-- The record of a field. -/
def toRecord (lib : Library := .lax) (f : Field) : Value :=
  lib.dump [("name", .text f.name), ("value", f.value), ("info", .text f.info),
    ("example", .text f.sample), ("range", .text f.range), ("link", .ofOption f.link),
    ("checked", .ofMark f.checked)]

end Field

/-- The demand on a state with the value that came with it. A state other than being set needs a
value. -/
def Demand.of? : State → Option String → Option Demand
  | .set, note => some (.set note)
  | .setToValue, some value => some (.setToValue value)
  | .contains, some value => some (.contains value)
  | _, none => none

namespace Clause

/-- A clause from its parts. -/
def ofParts (name : String) (state : State) (value : Option String) (negated : Bool) :
    Verdict Clause :=
  match Demand.of? state value with
  | some demand => .accepted ⟨name, demand, negated⟩
  | none => .refuse (.valueRequired name state)

/-- A clause from its record. -/
def read (lib : Library := .lax) : Coercion Clause :=
  lib.record fun es =>
    Verdict.andThen
      ((fun name state value negated => ofParts name state value negated)
        <$> lib.need es "name" lib.text
        <*> lib.need es "state" (lib.oneOf .unknownChoice State.name State.all)
        <*> lib.part es "value" [] none (lib.optional lib.text)
        <*> lib.part es "not" ["negate"] false lib.bool)
      id

/-- The record of a clause. -/
def toRecord (lib : Library := .lax) (c : Clause) : Value :=
  lib.dump [("name", .text c.name), ("state", .text c.state.name),
    ("value", .ofOption c.demand.value?), ("not", .bool c.negated)]

end Clause

namespace Rule

/-- A rule from its parts. -/
def ofParts (conditions : Option (List Clause)) (targets : { xs : List Clause // xs ≠ [] })
    (description : Option String) : Rule :=
  ⟨conditions, targets.1, description, targets.2⟩

/-- A rule from its record. -/
def read (lib : Library := .lax) : Coercion Rule :=
  lib.record fun es =>
    ofParts <$> lib.part es "conditions" [] none (lib.optional (lib.list (Clause.read lib)))
      <*> lib.need es "targets" (lib.nonempty (Clause.read lib))
      <*> lib.part es "description" [] none (lib.optional lib.text)

/-- The record of a rule. -/
def toRecord (lib : Library := .lax) (r : Rule) : Value :=
  lib.dump [("conditions", match r.conditions with
      | some cs => .list (cs.map (Clause.toRecord lib))
      | none => .null),
    ("targets", .list (r.targets.map (Clause.toRecord lib))),
    ("description", .ofOption r.description)]

end Rule

namespace RuleSet

/-- A set of rules from its record. -/
def read (lib : Library := .lax) : Coercion RuleSet :=
  lib.record fun es =>
    RuleSet.mk <$> lib.need es "name" lib.text
      <*> lib.part es "description" [] "" lib.text
      <*> lib.part es "tags" [] [] (lib.list lib.text)
      <*> lib.part es "rules" [] [] (lib.list (Rule.read lib))
      <*> lib.part es "extends" [] none (lib.optional lib.text)

/-- The record of a set of rules. -/
def toRecord (lib : Library := .lax) (s : RuleSet) : Value :=
  lib.dump [("name", .text s.name), ("description", .text s.description),
    ("tags", .list (s.tags.map .text)), ("rules", .list (s.rules.map (Rule.toRecord lib))),
    ("extends", .ofOption s.parent)]

end RuleSet

namespace Template

/-- A template from its record. -/
def read (lib : Library := .lax) : Coercion Template :=
  lib.record fun es =>
    Template.mk <$> lib.part es "name" [] "" lib.text
      <*> lib.part es "fileName" ["file_name"] "" lib.text
      <*> lib.part es "version" [] "" lib.text
      <*> lib.part es "description" [] "" lib.text
      <*> lib.part es "owner" [] "" lib.text
      <*> lib.part es "application" [] none (lib.optional lib.text)
      <*> lib.part es "docs" [] none (lib.optional lib.text)
      <*> lib.part es "command" [] none (lib.optional lib.text)
      <*> lib.part es "fields" [] [] (lib.list (Field.read lib))
      <*> lib.part es "ruleSets" ["rule_sets"] [] (lib.list (RuleSet.read lib))

/-- The record of a template. -/
def toRecord (lib : Library := .lax) (t : Template) : Value :=
  lib.dump [("name", .text t.name), ("fileName", .text t.fileName), ("version", .text t.version),
    ("description", .text t.description), ("owner", .text t.owner),
    ("application", .ofOption t.application), ("docs", .ofOption t.docs),
    ("command", .ofOption t.command), ("fields", .list (t.fields.map (Field.toRecord lib))),
    ("ruleSets", .list (t.ruleSets.map (RuleSet.toRecord lib)))]

end Template

end FieldRules
