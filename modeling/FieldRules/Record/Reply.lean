import FieldRules.Record.Template
import FieldRules.Service.Reply

/-!
Replies as records.
-/

namespace FieldRules

open Record

namespace Problem

/-- A problem from its record. -/
def read (lib : Library := .lax) : Coercion Problem :=
  lib.record fun es =>
    Problem.mk <$> lib.need es "code" lib.text
      <*> lib.need es "message" lib.text
      <*> lib.part es "detail" [] [] lib.map

/-- The record of a problem. -/
def toRecord (lib : Library := .lax) (p : Problem) : Value :=
  lib.dump [("code", .text p.code), ("message", .text p.message), ("detail", .map p.detail)]

end Problem

namespace Reply

/-- A reply from its record. -/
def read (lib : Library := .lax) : Coercion Reply :=
  lib.record fun es =>
    Reply.mk <$> lib.need es "ok" lib.bool
      <*> lib.need es "op" lib.text
      <*> lib.part es "data" [] [] lib.map
      <*> lib.part es "warnings" [] [] (lib.list lib.text)
      <*> lib.part es "error" [] none (lib.optional (Problem.read lib))
      <*> lib.part es "meta" [] none (lib.optional lib.map)

/-- The record of a reply. -/
def toRecord (lib : Library := .lax) (r : Reply) : Value :=
  lib.dump [("ok", .bool r.ok), ("op", .text r.operation), ("data", .map r.data),
    ("warnings", .list (r.warnings.map .text)),
    ("error", match r.problem with
      | some p => p.toRecord lib
      | none => .null),
    ("meta", match r.notes with
      | some es => .map es
      | none => .null)]

end Reply

end FieldRules
