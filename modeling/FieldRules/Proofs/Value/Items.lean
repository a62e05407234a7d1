import FieldRules.Proofs.Fault
import FieldRules.Proofs.Value.Decoded
import FieldRules.Rule.Target
import Mathlib.Tactic.SplitIfs

/-! The items of a writable value: asking for one, adding and taking out never fail, and what comes
of it is writable again. -/
namespace FieldRules

namespace Value

/-- The text that a value shows as. -/
def shown (v : Value) : String :=
  match v.display with
  | .ok s => s
  | .error _ => ""

/-- There is a text that the value shows as. -/
def Showable (v : Value) : Prop :=
  ∃ s, v.display = .ok s

theorem Writable.showable {v : Value} (h : v.Writable) : v.Showable :=
  exists_display h

theorem display_eq_ok {v : Value} (h : v.Showable) : v.display = .ok v.shown := by
  obtain ⟨s, hs⟩ := h
  unfold shown
  rw [hs]

variable {xs : List Value} {item : String}

theorem showable_of_writable (h : ∀ x ∈ xs, x.Writable) : ∀ x ∈ xs, x.Showable :=
  fun x hx => (h x hx).showable

theorem anyShows_eq_ok (h : ∀ x ∈ xs, x.Showable) :
    anyShows item xs = .ok (xs.any fun x => x.shown == item) :=
  Fault.anyM_eq_ok fun x hx => by rw [display_eq_ok (h x hx)]; rfl

theorem writable_append_text (item : String) (h : ∀ x ∈ xs, x.Writable) :
    ∀ x ∈ xs ++ [.text item], x.Writable := by
  intro x hx
  rcases List.mem_append.mp hx with hx | hx
  · exact h x hx
  · rw [List.mem_singleton.mp hx]
    exact writable_text item

/-- The items of a list with one more, unless it is there. -/
def adjoin (xs : List Value) (item : String) : List Value :=
  if xs.any (·.shown == item) then xs else xs ++ [.text item]

/-- The items of a list without one. -/
def discard (xs : List Value) (item : String) : List Value :=
  xs.filter (·.shown != item)

theorem without_eq_ok (h : ∀ x ∈ xs, x.Showable) : without xs item = .ok (discard xs item) :=
  Fault.filterM_eq_ok fun x hx => by rw [display_eq_ok (h x hx)]; rfl

theorem any_shown_adjoin (xs : List Value) (item : String) :
    (adjoin xs item).any (·.shown == item) = true := by
  unfold adjoin
  split_ifs with h
  · exact h
  · simp [shown, display]

theorem any_shown_adjoin_of_any {other : String} (h : xs.any (·.shown == other) = true) :
    (adjoin xs item).any (·.shown == other) = true := by
  unfold adjoin
  split_ifs
  · exact h
  · rw [List.any_append, h, Bool.true_or]

theorem writable_adjoin (item : String) (h : ∀ x ∈ xs, x.Writable) :
    ∀ x ∈ adjoin xs item, x.Writable := by
  unfold adjoin
  split_ifs
  · exact h
  · exact writable_append_text item h

theorem writable_discard (item : String) (h : ∀ x ∈ xs, x.Writable) :
    ∀ x ∈ discard xs item, x.Writable :=
  fun x hx => h x (List.mem_filter.mp hx).1

theorem discard_discard (xs : List Value) (item : String) :
    discard (discard xs item) item = discard xs item := by
  simp [discard]

theorem discard_discard_of_eq {other : String} (h : discard xs other = xs) :
    discard (discard xs item) other = discard xs item := by
  have hall := List.filter_eq_self.mp h
  exact List.filter_eq_self.mpr fun x hx => hall x (List.mem_filter.mp hx).1

theorem addItem_list_eq (xs : List Value) (item : String) : addItem (.list xs) item =
    (anyShows item xs).map fun b => .list (if b then xs else xs ++ [.text item]) := by
  unfold addItem
  dsimp only
  cases anyShows item xs with
  | error fault => rfl
  | ok b => cases b <;> rfl

theorem addItem_list (h : ∀ x ∈ xs, x.Showable) (item : String) :
    addItem (.list xs) item = .ok (.list (adjoin xs item)) := by
  rw [addItem_list_eq, anyShows_eq_ok h]
  rfl

theorem removeItem?_list (h : ∀ x ∈ xs, x.Showable) (item : String) :
    removeItem? (.list xs) item =
      .ok (some (.list (discard xs item), !(discard xs item).isEmpty)) := by
  simp only [removeItem?, without_eq_ok h]
  rfl

theorem exists_hasItem {v : Value} (h : v.Writable) (item : String) :
    ∃ b, v.hasItem item = .ok b := by
  cases v with
  | list xs => exact ⟨_, anyShows_eq_ok (showable_of_writable (writable_list.mp h))⟩
  | text s =>
    cases hs : Json.decodeList s with
    | none =>
      simp only [hasItem, hs]
      exact ⟨_, rfl⟩
    | some xs =>
      simp only [hasItem, hs]
      exact ⟨_, anyShows_eq_ok (showable_of_writable (Json.writable_decodeList hs))⟩
  | _ => exact ⟨_, rfl⟩

theorem exists_addItem {v : Value} (h : v.Writable) (item : String) :
    ∃ w, v.addItem item = .ok w ∧ w.Writable := by
  cases v with
  | list xs =>
    have hxs := writable_list.mp h
    exact ⟨_, addItem_list (showable_of_writable hxs) item,
      writable_list.mpr (writable_adjoin item hxs)⟩
  | text s =>
    cases hs : Json.decodeList s with
    | none =>
      simp only [addItem, hs]
      exact ⟨_, rfl, writable_text _⟩
    | some xs =>
      have hxs := Json.writable_decodeList hs
      simp only [addItem, hs, anyShows_eq_ok (showable_of_writable hxs)]
      cases xs.any fun x => x.shown == item with
      | true => exact ⟨_, rfl, writable_text s⟩
      | false =>
        obtain ⟨t, ht⟩ := exists_encode (writable_list.mpr (writable_append_text item hxs))
        refine ⟨.text t, ?_, writable_text t⟩
        simp only [bind, Except.bind, Bool.false_eq_true, ↓reduceIte, ht]
        rfl
  | _ => exact ⟨_, rfl, writable_text item⟩

theorem exists_removeItem? {v : Value} (h : v.Writable) (item : String) :
    ∃ rest, v.removeItem? item = .ok rest ∧ ∀ w ∈ rest, w.1.Writable := by
  cases v with
  | list xs =>
    have hxs := writable_list.mp h
    refine ⟨_, removeItem?_list (showable_of_writable hxs) item, ?_⟩
    simp only [Option.mem_def, Option.some.injEq, forall_eq']
    exact writable_list.mpr (writable_discard item hxs)
  | text s =>
    cases hs : Json.decodeList s with
    | none =>
      simp only [removeItem?, hs]
      exact ⟨_, rfl, by simp [writable_text]⟩
    | some xs =>
      have hxs := Json.writable_decodeList hs
      obtain ⟨t, ht⟩ := exists_encode (writable_list.mpr (writable_discard item hxs))
      simp only [removeItem?, hs, without_eq_ok (showable_of_writable hxs), bind, Except.bind, ht]
      exact ⟨_, rfl, by simp [writable_text]⟩
  | _ => exact ⟨none, rfl, by simp⟩

end Value

end FieldRules
