/-!
Keyed entries in the order in which their keys first came.
-/

namespace FieldRules

/-- Values under keys, in order. -/
abbrev Entries (α : Type u) := List (String × α)

namespace Entries

variable {α : Type u} {β : Type v}

/-- The value under a key. -/
def get? : Entries α → String → Option α
  | [], _ => none
  | (k, v) :: es, key => if k = key then some v else get? es key

/-- Whether there is a value under a key. -/
def contains (es : Entries α) (key : String) : Bool :=
  (get? es key).isSome

/-- Puts a value under a key: in its place if the key is there, otherwise at the end. -/
def insert : Entries α → String → α → Entries α
  | [], key, value => [(key, value)]
  | (k, v) :: es, key, value =>
    if k = key then (k, value) :: es else (k, v) :: insert es key value

/-- The entries of one list put over those of another. -/
def overlay (es later : Entries α) : Entries α :=
  later.foldl (fun acc e => insert acc e.1 e.2) es

/-- Entries from pairs, of which a later one replaces an earlier one of its key. -/
def ofPairs (pairs : List (String × α)) : Entries α :=
  overlay [] pairs

/-- The keys in order. -/
def keys (es : Entries α) : List String :=
  es.map (·.1)

@[simp] theorem get?_nil (key : String) : get? ([] : Entries α) key = none := rfl

@[simp] theorem get?_cons (k : String) (v : α) (es : Entries α) (key : String) :
    get? ((k, v) :: es) key = if k = key then some v else get? es key := rfl

theorem get?_insert (es : Entries α) (key other : String) (value : α) :
    get? (insert es key value) other = if key = other then some value else get? es other := by
  induction es with
  | nil => simp [insert]
  | cons e es ih => simp only [insert]; split <;> grind [get?]

theorem contains_iff {es : Entries α} {key : String} :
    contains es key = true ↔ key ∈ keys es := by
  unfold contains keys
  induction es with
  | nil => simp
  | cons e es ih => by_cases h : e.1 = key <;> grind [get?]

theorem get?_eq_some {es : Entries α} {key : String} {value : α} (hk : (keys es).Nodup)
    (h : (key, value) ∈ es) : get? es key = some value := by
  induction es with
  | nil => simp at h
  | cons e es ih => grind [keys, get?]

theorem forall_insert {P : α → Prop} {es : Entries α} {key : String} {value : α}
    (h : ∀ e ∈ es, P e.2) (hv : P value) : ∀ e ∈ insert es key value, P e.2 := by
  induction es with
  | nil => simpa [insert] using hv
  | cons e es ih => simp only [insert]; split <;> grind

theorem forall_overlay {P : α → Prop} {es later : Entries α} (h : ∀ e ∈ es, P e.2)
    (hl : ∀ e ∈ later, P e.2) : ∀ e ∈ overlay es later, P e.2 := by
  unfold overlay
  induction later generalizing es with
  | nil => exact h
  | cons e later ih => exact ih (forall_insert h (hl e (by simp))) fun f hf => hl f (by simp [hf])

theorem keys_insert (es : Entries α) (key : String) (value : α) :
    keys (insert es key value) = if key ∈ keys es then keys es else keys es ++ [key] := by
  induction es with
  | nil => simp [insert, keys]
  | cons e es ih =>
    simp only [insert]
    split <;> grind [keys]

end Entries

end FieldRules
