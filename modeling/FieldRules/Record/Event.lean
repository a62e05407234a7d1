import FieldRules.Record.Template
import FieldRules.Trigger

/-!
Events and changes as records.
-/

namespace FieldRules

open Record

namespace Trigger

/-- An event from its record. -/
def read (lib : Library := .lax) : Coercion Trigger :=
  lib.record fun es =>
    Trigger.mk <$> lib.need es "type" (lib.oneOf .unknownChoice Kind.name Kind.all)
      <*> lib.part es "field_name" [] none (lib.optional lib.text)
      <*> lib.part es "old_value" [] .null lib.any
      <*> lib.part es "new_value" [] .null lib.any
      <*> lib.part es "ai_tool" [] none (lib.optional lib.text)

/-- The record of an event. -/
def toRecord (lib : Library := .lax) (t : Trigger) : Value :=
  lib.dump [("type", .text t.kind.name), ("field_name", .ofOption t.field), ("old_value", t.old),
    ("new_value", t.new), ("ai_tool", .ofOption t.tool)]

end Trigger

namespace Change

/-- A change from its record. -/
def read (lib : Library := .lax) : Coercion Change :=
  lib.record fun es =>
    Change.mk <$> lib.need es "field_name" lib.text
      <*> lib.need es "property" (lib.oneOf .unknownLiteral Property.name Property.all)
      <*> lib.part es "old_value" [] .null lib.any
      <*> lib.part es "new_value" [] .null lib.any
      <*> lib.need es "reason" lib.text

/-- The record of a change. -/
def toRecord (lib : Library := .lax) (c : Change) : Value :=
  lib.dump [("field_name", .text c.field), ("property", .text c.property.name), ("old_value", c.old),
    ("new_value", c.new), ("reason", .text c.reason)]

end Change

end FieldRules
