import FieldRules.Value.Agreement
import Mathlib.Data.List.Forall2

/-! A value agrees with itself, if no mapping in it has a key twice. So a value that is kept counts
as changed only if it is a bare `nan`. -/
namespace FieldRules.Value

mutual

/-- No mapping in a value has a key twice. No mapping that is read does. -/
def Keyed : Value → Prop
  | .list xs => KeyedItems xs
  | .map es => (Entries.keys es).Nodup ∧ KeyedEntries es
  | _ => True

/-- The same of all items. -/
def KeyedItems : List Value → Prop
  | [] => True
  | x :: xs => x.Keyed ∧ KeyedItems xs

/-- The same of the values of all entries. -/
def KeyedEntries : List (String × Value) → Prop
  | [] => True
  | (_, x) :: es => x.Keyed ∧ KeyedEntries es

end

theorem keyed_list {xs : List Value} : Keyed (.list xs) ↔ ∀ x ∈ xs, x.Keyed := by
  rw [Keyed]
  induction xs with
  | nil => simp [KeyedItems]
  | cons x xs ih => simp [KeyedItems, ih]

theorem keyedEntries_iff {es : List (String × Value)} :
    KeyedEntries es ↔ ∀ e ∈ es, e.2.Keyed := by
  induction es with
  | nil => simp [KeyedEntries]
  | cons e es ih => rw [KeyedEntries, ih, List.forall_mem_cons]

theorem keyed_map {es : List (String × Value)} :
    Keyed (.map es) ↔ (Entries.keys es).Nodup ∧ ∀ e ∈ es, e.2.Keyed := by
  rw [Keyed, keyedEntries_iff]

theorem keyed_text (s : String) : Keyed (.text s) := by
  simp [Keyed]

mutual

theorem agrees_self : ∀ v : Value, v.Keyed → agrees true v v = true
  | .null, _ => by simp [agrees]
  | .bool _, _ => by simp [agrees, quantity?, Quantity.agrees]
  | .int _, _ => by simp [agrees, quantity?, Quantity.agrees]
  | .double (.finite _ _ _), _ => by simp [agrees, quantity?, Quantity.agrees]
  | .double (.infinity _), _ => by simp [agrees, quantity?, Quantity.agrees]
  | .double .nan, _ => by simp [agrees, quantity?, Quantity.agrees]
  | .text _, _ => by simp [agrees]
  | .list xs, h => by
    rw [Keyed] at h
    rw [agrees]
    exact agreesItems_self xs h
  | .map es, h => by
    rw [Keyed] at h
    have hes := agreesEntries_self es es h.2 h.1 fun _ he => he
    simp [agrees, hes]

theorem agreesItems_self : ∀ xs : List Value, KeyedItems xs → agreesItems true xs xs = true
  | [], _ => by rw [agreesItems]
  | x :: xs, h => by
    rw [KeyedItems] at h
    rw [agreesItems, agrees_self x h.1, agreesItems_self xs h.2]
    rfl

theorem agreesEntries_self : ∀ es fs : List (String × Value), KeyedEntries es →
    (Entries.keys fs).Nodup → (∀ e ∈ es, e ∈ fs) → agreesEntries true es fs = true
  | [], _, _, _, _ => by rw [agreesEntries]
  | (k, x) :: es, fs, h, hn, hsub => by
    rw [KeyedEntries] at h
    have hget : Entries.get? fs k = some x := Entries.get?_eq_some hn (hsub (k, x) (by simp))
    have hes := agreesEntries_self es fs h.2 hn fun e he => hsub e (by simp [he])
    rw [agreesEntries, hget, hes]
    simp [agrees_self x h.1]

end

theorem eq_nan_of_changed_self {v : Value} (hk : v.Keyed) (h : changed v v = true) :
    v = .double .nan := by
  unfold changed at h
  split at h
  · rfl
  · rw [agrees_self v hk] at h
    cases h

theorem eq_text_of_agrees {nan : Bool} {v : Value} {s : String}
    (h : agrees nan v (.text s) = true) : v = .text s := by
  cases v with
  | text t =>
    rw [agrees] at h
    rw [beq_iff_eq.mp h]
  | _ => simp [agrees, quantity?] at h

theorem forall₂_of_agreesItems {nan : Bool} {xs ys : List Value}
    (h : agreesItems nan xs ys = true) :
    List.Forall₂ (fun x y => agrees nan x y = true) xs ys := by
  induction xs generalizing ys with
  | nil =>
    cases ys with
    | nil => exact .nil
    | cons y ys => simp [agreesItems] at h
  | cons x xs ih =>
    cases ys with
    | nil => simp [agreesItems] at h
    | cons y ys =>
      rw [agreesItems, Bool.and_eq_true] at h
      exact .cons h.1 (ih h.2)

theorem length_eq_of_agreesItems {nan : Bool} {xs ys : List Value}
    (h : agreesItems nan xs ys = true) : xs.length = ys.length :=
  (forall₂_of_agreesItems h).length_eq

end FieldRules.Value
