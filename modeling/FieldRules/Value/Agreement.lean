import FieldRules.Value

/-!
Agreement of values: numbers and truth values agree by quantity, lists item by item, mappings key
by key in any order.
-/

namespace FieldRules

/-- What a number or a truth value counts for. -/
inductive Quantity
  | exact (mantissa exponent : Int)
  | infinity (negative : Bool)
  | nan

/-- Whether two quantities are the same. Whether `nan` is the same as itself is left open. -/
def Quantity.agrees (nan : Bool) : Quantity → Quantity → Bool
  | .exact m e, .exact n f =>
    let low := min e f
    m * Nat.pow 2 (e - low).toNat == n * Nat.pow 2 (f - low).toNat
  | .infinity a, .infinity b => a == b
  | .nan, .nan => nan
  | _, _ => false

namespace Value

/-- The quantity of a number or of a truth value. -/
def quantity? : Value → Option Quantity
  | .bool b => some (.exact (if b then 1 else 0) 0)
  | .int i => some (.exact i 0)
  | .double (.finite negative m e) => some (.exact (if negative then -(m : Int) else m) e)
  | .double (.infinity negative) => some (.infinity negative)
  | .double .nan => some .nan
  | _ => none

mutual

/-- Whether two values agree, when `nan` agrees with itself or not. -/
def agrees (nan : Bool) : Value → Value → Bool
  | .null, .null => true
  | .text s, .text t => s == t
  | .list xs, .list ys => agreesItems nan xs ys
  | .map es, .map fs => es.length == fs.length && agreesEntries nan es fs
  | a, b =>
    match a.quantity?, b.quantity? with
    | some m, some n => m.agrees nan n
    | _, _ => false

/-- Whether two lists agree item by item. -/
def agreesItems (nan : Bool) : List Value → List Value → Bool
  | [], [] => true
  | x :: xs, y :: ys => agrees nan x y && agreesItems nan xs ys
  | _, _ => false

/-- Whether every entry agrees with the one of its key in another mapping. -/
def agreesEntries (nan : Bool) : List (String × Value) → List (String × Value) → Bool
  | [], _ => true
  | (k, x) :: es, fs =>
    (match Entries.get? fs k with
      | some y => agrees nan x y
      | none => false) && agreesEntries nan es fs

end

/-- Whether a value that was kept and one that may have replaced it differ. Of a kept value each
part agrees with itself, but a bare `nan` always counts as changed. -/
def changed (old new : Value) : Bool :=
  match old, new with
  | .double .nan, .double .nan => true
  | _, _ => !agrees true old new

/-- Whether two values from different sources are equal; `nan` is equal to nothing. -/
def equal (a b : Value) : Bool :=
  agrees false a b

end Value

end FieldRules
