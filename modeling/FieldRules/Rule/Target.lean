import FieldRules.Rule.Condition

/-!
What enforcing a target does to one field.
-/

namespace FieldRules

namespace Value

/-- The values that do not show as a text. -/
def without (xs : List Value) (item : String) : Except Fault (List Value) :=
  xs.filterM fun x => do return (← x.display) != item

/-- A value to which an item has been added: to a list at its end, to a JSON list as to that list,
to a running text after a space. What a list or a text already has is not added again, and any
other value is replaced by the item. -/
def addItem (v : Value) (item : String) : Except Fault Value :=
  match v with
  | .list xs => do
    if ← anyShows item xs then return .list xs else return .list (xs ++ [.text item])
  | .text s =>
    match Json.decodeList s with
    | some xs => do
      if ← anyShows item xs then return .text s
      else return .text (← Json.encode (.list (xs ++ [.text item])))
    | none =>
      .ok (.text (if Text.occursIn item.toList s.toList then s
        else if s = "" then item
        else s ++ " " ++ item))
  | _ => .ok (.text item)

/-- What is left of a list or a text when an item is taken out, and whether anything is. Other
values have no items. -/
def removeItem? (v : Value) (item : String) : Except Fault (Option (Value × Bool)) :=
  match v with
  | .list xs => do
    let rest ← without xs item
    return some (.list rest, !rest.isEmpty)
  | .text s =>
    match Json.decodeList s with
    | some xs => do
      let rest ← without xs item
      return some (.text (← Json.encode (.list rest)), !rest.isEmpty)
    | none =>
      let rest := Text.eraseItems item s
      .ok (some (.text rest, rest != ""))
  | _ => .ok none

end Value

namespace Field

/-- A field that holds an item. -/
def add (f : Field) (item : String) : Except Fault Field := do
  return { f with value := ← f.value.addItem item, checked := some true }

/-- A field that does not hold an item. When nothing is left, it is not checked any more. -/
def remove (f : Field) (item : String) : Except Fault Field := do
  match ← f.value.removeItem? item with
  | some (rest, true) => return { f with value := rest }
  | some (rest, false) => return { f with value := rest, checked := some false }
  | none => return f

/-- A field on which a demand, or its opposite, has been enforced. An empty item changes nothing. -/
def enforce (f : Field) (negated : Bool) : Demand → Except Fault Field
  | .set _ => .ok { f with checked := some !negated }
  | .setToValue value =>
    .ok (if negated then { f with value := .text "", checked := some false }
      else { f with value := .text value, checked := some true })
  | .contains value =>
    if value = "" then .ok f
    else if negated then f.remove value
    else f.add value

end Field

/-- A field on which a target has been enforced. -/
def Clause.enforceOn (t : Clause) (f : Field) : Except Fault Field :=
  f.enforce t.negated t.demand

/-- Whether a field must be checked because a rule without conditions names it as a target. -/
def Rule.isRequired (name : String) (rules : List Rule) : Bool :=
  rules.any fun r => r.isUnconditional && r.targets.any fun t => t.name == name && !t.negated

end FieldRules
