import FieldRules.Record.Coercion

/-!
What is left to the library that checks records and dumps them. It is told of a kind of record what
its parts are called and of which type they are; how a part is found, how it is read by its type and
how a record is written is up to the library.
-/

namespace FieldRules.Record

/-- A library that reads records by their parts, and dumps them. -/
structure Library where
  /-- Any value. -/
  any : Coercion Value
  text : Coercion String
  bool : Coercion Bool
  int : Coercion Int
  /-- A text, a truth value, a number, or a list of texts and numbers. -/
  value : Coercion Value
  /-- One of the values with a name, or else a refusal for a cause. -/
  oneOf : {α : Type} → Cause → (α → String) → List α → Coercion α
  /-- A value that may be absent. -/
  optional : {α : Type} → Coercion α → Coercion (Option α)
  list : {α : Type} → Coercion α → Coercion (List α)
  /-- A list of fixed alternatives. -/
  tuple : {α : Type} → Coercion α → Coercion (List α)
  /-- A list with at least one item. -/
  nonempty : {α : Type} → Coercion α → Coercion { xs : List α // xs ≠ [] }
  /-- A mapping of any values. -/
  map : Coercion (Entries Value)
  /-- A record, from its entries. -/
  record : {α : Type} → (Entries Value → Verdict α) → Coercion α
  /-- A record of one of several kinds, from its entries and the tag under a key. -/
  tagged : {α : Type} → String → List (String × (Entries Value → Verdict α)) → Coercion α
  /-- A part that must be there. -/
  need : {α : Type} → Entries Value → String → Coercion α → Verdict α
  /-- A part by its key or one of several other keys, with a value to take when it is not there. -/
  part : {α : Type} → Entries Value → String → List String → α → Coercion α → Verdict α
  /-- Whether there are no keys but these. -/
  only : List String → Entries Value → Verdict Unit
  /-- The record of parts under their keys. -/
  dump : Entries Value → Value

/-- A library that accepts what is of a neighbouring kind, as far as its meaning is plain. -/
def Library.lax : Library where
  any := Coercion.any
  text := Coercion.text
  bool := Coercion.bool
  int := Coercion.int
  value := Coercion.value
  oneOf := Coercion.oneOf
  optional := Coercion.optional
  list := Coercion.list
  tuple := Coercion.tuple
  nonempty := Coercion.nonempty
  map := Coercion.map
  record := Coercion.record
  tagged := Coercion.tagged
  need := Record.need
  part := Record.part
  only := Record.only
  dump := .map

end FieldRules.Record
