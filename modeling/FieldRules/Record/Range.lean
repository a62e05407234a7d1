import FieldRules.Range
import FieldRules.Record.Library

/-!
Ranges as records. A tag tells which kind of range a record is.
-/

namespace FieldRules.Range

open Record

/-- The name of the tag of a record. -/
def tagKey : String :=
  "range_type"

/-- Bounds from two parts of a record. -/
def readBounds (lib : Library) (es : Entries Value) (min max : String) : Verdict Bounds :=
  Bounds.mk <$> lib.part es min [] none (lib.optional lib.int)
    <*> lib.part es max [] none (lib.optional lib.int)

/-- The kinds of ranges by their tags, each with the way to read its record. -/
def readers (lib : Library) : List (String × (Entries Value → Verdict Range)) := [
  ("scalar", fun es =>
    Range.scalar
      <$> lib.need es "data_type" (lib.oneOf .unknownChoice ScalarType.name ScalarType.all)
      <*> readBounds lib es "min" "max"),
  ("array", fun es =>
    Range.array <$> lib.need es "item_type" (lib.oneOf .unknownChoice ItemType.name ItemType.all)
      <*> readBounds lib es "min_size" "max_size"),
  ("enum", fun es => Range.choice <$> lib.need es "options" (lib.tuple lib.text)),
  ("enum-array", fun es =>
    Range.choices <$> lib.need es "options" (lib.tuple lib.text)
      <*> readBounds lib es "min_size" "max_size"),
  ("pattern", fun es => Range.pattern <$> lib.need es "regex" lib.text)]

/-- A range from its record. -/
def read (lib : Library := .lax) : Coercion Range :=
  lib.tagged tagKey (readers lib)

/-- A bound as a value. -/
def boundValue : Option Int → Value
  | some n => .int n
  | none => .null

/-- The record of a range. -/
def toRecord (lib : Library := .lax) : Range → Value
  | .scalar type b => lib.dump [(tagKey, .text "scalar"), ("data_type", .text type.name),
      ("min", boundValue b.min), ("max", boundValue b.max)]
  | .array type b => lib.dump [(tagKey, .text "array"), ("item_type", .text type.name),
      ("min_size", boundValue b.min), ("max_size", boundValue b.max)]
  | .choice options => lib.dump [(tagKey, .text "enum"), ("options", .list (options.map .text))]
  | .choices options b => lib.dump [(tagKey, .text "enum-array"),
      ("options", .list (options.map .text)), ("min_size", boundValue b.min),
      ("max_size", boundValue b.max)]
  | .pattern regex => lib.dump [(tagKey, .text "pattern"), ("regex", .text regex)]

end FieldRules.Range
