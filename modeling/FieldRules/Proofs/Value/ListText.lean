import FieldRules.Proofs.Json.RoundTrip
import FieldRules.Proofs.Value.Items

/-! Items of a list and of a text that shows the list. Asking for an item, adding one and taking one
out come to the same on both. -/
namespace FieldRules.Value

open Json

variable {xs : List Value} {s : String}

theorem durable_adjoin (h : ∀ x ∈ xs, Durable x) (item : String) :
    ∀ x ∈ adjoin xs item, Durable x := by
  unfold adjoin
  split_ifs
  · exact h
  · intro x hx
    rcases List.mem_append.mp hx with hx | hx
    · exact h x hx
    · rw [List.mem_singleton.mp hx]
      exact durable_text item

theorem durable_discard (h : ∀ x ∈ xs, Durable x) (item : String) :
    ∀ x ∈ discard xs item, Durable x :=
  fun x hx => h x (List.mem_filter.mp hx).1

/-- An item is added to the text of a list as to the list. What is there already leaves the text as
it is, and a text as it is written stays one. -/
theorem exists_addItem_listText (h : decodeList s = some xs) (hxs : ∀ x ∈ xs, Durable x)
    (item : String) :
    ∃ t, addItem (.text s) item = .ok (.text t) ∧ decodeList t = some (adjoin xs item) ∧
      (xs.any (·.shown == item) = true → t = s) ∧
      (Written xs s → Written (adjoin xs item) t) := by
  simp only [addItem, h, anyShows_eq_ok fun x hx => (hxs x hx).writable.showable]
  cases hhas : xs.any (·.shown == item) with
  | true =>
    have hsame : adjoin xs item = xs := if_pos hhas
    rw [hsame]
    exact ⟨s, rfl, h, fun _ => rfl, id⟩
  | false =>
    have hmore : adjoin xs item = xs ++ [.text item] := if_neg (by simp [hhas])
    obtain ⟨t, ht⟩ := exists_written (durable_adjoin hxs item)
    refine ⟨t, ?_, ht.decode, fun hany => absurd hany (by simp), fun _ => ht⟩
    rw [hmore] at ht
    simp [bind, Except.bind, ht.encode, pure, Except.pure]

/-- An item is taken out of the text of a list as out of the list, and the text is written anew. -/
theorem exists_removeItem?_listText (h : decodeList s = some xs) (hxs : ∀ x ∈ xs, Durable x)
    (item : String) :
    ∃ t, removeItem? (.text s) item = .ok (some (.text t, !(discard xs item).isEmpty)) ∧
      Written (discard xs item) t := by
  obtain ⟨t, ht⟩ := exists_written (durable_discard hxs item)
  refine ⟨t, ?_, ht⟩
  simp only [removeItem?, h, without_eq_ok fun x hx => (hxs x hx).writable.showable]
  simp [bind, Except.bind, ht.encode, pure, Except.pure]

theorem hasItem_written (h : Written xs s) (item : String) :
    hasItem (.text s) item = hasItem (.list xs) item := by
  simp only [hasItem, h.decode]

theorem addItem_written (h : Written xs s) (hxs : ∀ x ∈ xs, Durable x) (item : String) :
    ∃ ys t, Written ys t ∧ addItem (.list xs) item = .ok (.list ys) ∧
      addItem (.text s) item = .ok (.text t) := by
  obtain ⟨t, hadd, -, -, ht⟩ := exists_addItem_listText h.decode hxs item
  exact ⟨_, t, ht h, addItem_list (fun x hx => (hxs x hx).writable.showable) item, hadd⟩

theorem removeItem?_written (h : Written xs s) (hxs : ∀ x ∈ xs, Durable x) (item : String) :
    ∃ ys t, Written ys t ∧ removeItem? (.list xs) item = .ok (some (.list ys, !ys.isEmpty)) ∧
      removeItem? (.text s) item = .ok (some (.text t, !ys.isEmpty)) := by
  obtain ⟨t, hremove, ht⟩ := exists_removeItem?_listText h.decode hxs item
  exact ⟨_, t, ht, removeItem?_list (fun x hx => (hxs x hx).writable.showable) item, hremove⟩

end FieldRules.Value
