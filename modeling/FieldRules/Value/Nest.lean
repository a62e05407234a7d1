import FieldRules.Field
import FieldRules.Numeral
import FieldRules.Text.Digit

/-!
Checked fields as one nested mapping. A mapping whose keys are all positions becomes a list.
-/

namespace FieldRules.Value

/-- The entries of a mapping; other values have none. -/
def entriesOf : Option Value → Entries Value
  | some (.map es) => es
  | _ => []

/-- Puts a value at the end of a path of keys. What stands in the way and is no mapping is
replaced. -/
def putAt : List String → Value → Entries Value → Entries Value
  | [], _, es => es
  | [key], v, es => Entries.insert es key v
  | key :: keys, v, es =>
    Entries.insert es key (.map (putAt keys v (entriesOf (Entries.get? es key))))

/-- The digits of a key that is a position. A line break after them does not count. -/
def positionDigits? (key : String) : Option (List Char) :=
  let cs := key.toList
  let ds := if cs.getLast? = some '\n' then cs.dropLast else cs
  if !ds.isEmpty && ds.all Text.isDigit then some ds else none

/-- Entries with their positions, if every key is one. -/
def positions? (es : Entries Value) : Option (List (List Char × Value)) :=
  es.mapM fun (k, v) => (positionDigits? k).map fun ds => (ds, v)

/-- A mapping, or the list of its values in the order of their positions when all keys are
positions. -/
def ofEntries (es : Entries Value) : Except Fault Value :=
  match es, positions? es with
  | _ :: _, some placed => do
    let placed ← placed.mapM fun (ds, v) => do
      let n ← Numeral.readNat ds
      return (n, v)
    return .list ((placed.mergeSort fun a b => decide (a.1 ≤ b.1)).map (·.2))
  | _, _ => .ok (.map es)

mutual

/-- A value with lists in place of mappings by position, inside mappings. -/
def listify : Value → Except Fault Value
  | .map es => do
    let es ← listifyEntries es
    ofEntries es
  | v => .ok v

/-- Entries with lists in place of mappings by position. -/
def listifyEntries : List (String × Value) → Except Fault (List (String × Value))
  | [] => .ok []
  | (k, v) :: es => do
    let v ← listify v
    let es ← listifyEntries es
    return (k, v) :: es

end

end FieldRules.Value

namespace FieldRules.Field

/-- The checked fields as one mapping of mappings, before positions are taken for lists. -/
def tree (fields : List Field) : Entries Value :=
  (fields.filter isChecked).foldl (fun es f => Value.putAt (Path.segments f.name) f.value es) []

/-- The checked fields as a nested value. -/
def nest (fields : List Field) : Except Fault Value :=
  Value.listify (.map (tree fields))

end FieldRules.Field
