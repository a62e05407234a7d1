import FieldRules.Field
import FieldRules.Json.Decode
import FieldRules.Rule
import FieldRules.Text.Split
import FieldRules.Value.Display

/-!
When conditions hold. A condition is about the field of its name, or, when no field has it, about
every field under it.
-/

namespace FieldRules

namespace Value

/-- Whether one of some values shows as a text. The values after it are not looked at. -/
def anyShows (text : String) (xs : List Value) : Except Fault Bool :=
  xs.anyM fun x => do return (← x.display) == text

/-- Whether a list has an item, or a running text a part. A text that is a JSON list counts as
that list. -/
def hasItem (v : Value) (item : String) : Except Fault Bool :=
  match v with
  | .list xs => anyShows item xs
  | .text s =>
    match Json.decodeList s with
    | some xs => anyShows item xs
    | none => .ok (Text.occursIn item.toList s.toList)
  | _ => .ok false

end Value

/-- Whether a value is as a demand asks. -/
def Demand.fits (d : Demand) (v : Value) : Except Fault Bool :=
  match d with
  | .set _ => .ok (v != .text "")
  | .setToValue value => do return (← v.display) == value
  | .contains value => if value = "" then .ok false else v.hasItem value

namespace Field

/-- Whether a field meets a demand. A field that is not checked meets none. -/
def meets (f : Field) (d : Demand) : Except Fault Bool :=
  if f.isChecked then d.fits f.value else .ok false

/-- The positions of the fields that a name reaches: that of the last field with the name, or, when
no field has it, those of all fields under it. -/
def reach (names : List String) (name : String) : List Nat :=
  match (names.zipIdx.filter fun n => n.1 == name).getLast? with
  | some (_, i) => [i]
  | none => (names.zipIdx.filter fun n => Path.isUnder n.1 name).map (·.2)

/-- The fields that a name reaches. -/
def reached (fields : List Field) (name : String) : List Field :=
  (reach (fields.map (·.name)) name).filterMap (fields[·]?)

end Field

/-- Whether a condition holds. Without negation every field that its name reaches must meet the
demand. -/
def Clause.holds (c : Clause) (fields : List Field) : Except Fault Bool := do
  let met ← (Field.reached fields c.name).allM fun f => f.meets c.demand
  return met != c.negated

/-- Whether all conditions of a rule hold. -/
def Rule.applies (r : Rule) (fields : List Field) : Except Fault Bool :=
  r.conditionList.allM fun c => c.holds fields

end FieldRules
