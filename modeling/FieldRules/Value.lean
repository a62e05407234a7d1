import FieldRules.Double
import FieldRules.Entries

/-!
The values that fields and settings hold, and when two of them agree.
-/

namespace FieldRules

/-- A value of a field or of a setting. -/
inductive Value
  | null
  | bool (b : Bool)
  | int (i : Int)
  | double (d : Double)
  | text (s : String)
  | list (items : List Value)
  | map (entries : List (String × Value))

instance : Inhabited Value := ⟨.null⟩

namespace Value

mutual

/-- Whether two values are written alike in every part. -/
def beq : Value → Value → Bool
  | .null, .null => true
  | .bool a, .bool b => a == b
  | .int i, .int j => i == j
  | .double d, .double e => d == e
  | .text s, .text t => s == t
  | .list xs, .list ys => beqItems xs ys
  | .map es, .map fs => beqEntries es fs
  | _, _ => false

/-- Whether two lists of values are written alike. -/
def beqItems : List Value → List Value → Bool
  | [], [] => true
  | x :: xs, y :: ys => x.beq y && beqItems xs ys
  | _, _ => false

/-- Whether two lists of entries are written alike, in the same order. -/
def beqEntries : List (String × Value) → List (String × Value) → Bool
  | [], [] => true
  | (k, x) :: xs, (l, y) :: ys => k == l && x.beq y && beqEntries xs ys
  | _, _ => false

end

mutual

theorem eq_of_beq : ∀ {a b : Value}, a.beq b = true → a = b
  | .null, .null, _ => rfl
  | .bool _, .bool _, h => by simp_all [beq]
  | .int _, .int _, h => by simp_all [beq]
  | .double _, .double _, h => by simp_all [beq]
  | .text _, .text _, h => by simp_all [beq]
  | .list _, .list _, h => by rw [beq] at h; rw [eqItems_of_beq h]
  | .map _, .map _, h => by rw [beq] at h; rw [eqEntries_of_beq h]

theorem eqItems_of_beq : ∀ {xs ys : List Value}, beqItems xs ys = true → xs = ys
  | [], [], _ => rfl
  | x :: xs, y :: ys, h => by
    rw [beqItems, Bool.and_eq_true] at h
    rw [eq_of_beq h.1, eqItems_of_beq h.2]

theorem eqEntries_of_beq :
    ∀ {xs ys : List (String × Value)}, beqEntries xs ys = true → xs = ys
  | [], [], _ => rfl
  | (k, x) :: xs, (l, y) :: ys, h => by
    simp only [beqEntries, Bool.and_eq_true, beq_iff_eq] at h
    rw [h.1.1, eq_of_beq h.1.2, eqEntries_of_beq h.2]

end

mutual

theorem beq_self : ∀ a : Value, a.beq a = true
  | .null => rfl
  | .bool _ => by simp [beq]
  | .int _ => by simp [beq]
  | .double _ => by simp [beq]
  | .text _ => by simp [beq]
  | .list xs => by rw [beq]; exact beqItems_self xs
  | .map es => by rw [beq]; exact beqEntries_self es

theorem beqItems_self : ∀ xs : List Value, beqItems xs xs = true
  | [] => rfl
  | x :: xs => by simp [beqItems, beq_self x, beqItems_self xs]

theorem beqEntries_self : ∀ xs : List (String × Value), beqEntries xs xs = true
  | [] => rfl
  | (k, x) :: xs => by simp [beqEntries, beq_self x, beqEntries_self xs]

end

instance : BEq Value := ⟨beq⟩

instance : LawfulBEq Value where
  eq_of_beq := eq_of_beq
  rfl := beq_self _

instance : DecidableEq Value := instDecidableEqOfLawfulBEq

end Value

end FieldRules
