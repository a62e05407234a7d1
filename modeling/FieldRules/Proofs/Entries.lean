import FieldRules.Entries

/-! Entries put over others: one more entry goes over all of them alike. -/
namespace FieldRules.Entries

variable {α : Type} {es later front : Entries α} {key : String} {value : α}

theorem nodup_keys_insert (h : (keys es).Nodup) : (keys (insert es key value)).Nodup := by
  rw [keys_insert]
  split
  · exact h
  · rename_i hkey
    have hfresh : ∀ k ∈ keys es, k ≠ key := fun k hk heq => hkey (heq ▸ hk)
    simpa [List.nodup_append, h] using hfresh

theorem nodup_keys_ofPairs (pairs : List (String × α)) : (keys (ofPairs pairs)).Nodup := by
  suffices hover : ∀ es : Entries α, (keys es).Nodup → (keys (overlay es pairs)).Nodup from
    hover [] List.nodup_nil
  unfold overlay
  induction pairs with
  | nil => exact fun es h => h
  | cons e pairs ih => exact fun es h => ih _ (nodup_keys_insert h)

theorem insert_insert (es : Entries α) (key : String) (old value : α) :
    insert (insert es key old) key value = insert es key value := by
  induction es with
  | nil => simp [insert]
  | cons e es ih =>
    by_cases he : e.1 = key
    · simp [insert, he]
    · simp [insert, he, ih]

/-- An entry whose key is there already is replaced before or after any other is put in. -/
theorem insert_comm {other : String} {value' : α} (h : key ∈ keys es) (hne : key ≠ other) :
    insert (insert es other value') key value = insert (insert es key value) other value' := by
  induction es with
  | nil => cases h
  | cons e es ih =>
    by_cases hkey : e.1 = key
    · have hother : e.1 ≠ other := hkey ▸ hne
      simp [insert, hkey, hne]
    · have hes : key ∈ keys es := by simpa [keys, Ne.symm hkey] using h
      by_cases hother : e.1 = other
      · simp [insert, hother, hne.symm]
      · simp [insert, hkey, hother, ih hes]

theorem insert_overlay_of_mem (h : key ∈ keys es) (hkey : key ∉ keys later) :
    insert (overlay es later) key value = overlay (insert es key value) later := by
  unfold overlay
  induction later generalizing es with
  | nil => rfl
  | cons e later ih =>
    have hne : key ≠ e.1 := fun heq => hkey (by simp [keys, heq])
    have hlater : key ∉ keys later := fun hmem => hkey (List.mem_cons_of_mem _ hmem)
    have hes : key ∈ keys (insert es e.1 e.2) := by
      rw [keys_insert]
      split
      · exact h
      · exact List.mem_append_left _ h
    rw [List.foldl_cons, List.foldl_cons, ih hes hlater, insert_comm h hne]

/-- Entries with one more among them are put over others as they were, and then the one. -/
theorem overlay_insert (es : Entries α) (value : α) (h : (keys later).Nodup) :
    overlay es (insert later key value) = insert (overlay es later) key value := by
  induction later generalizing es with
  | nil => rfl
  | cons e later ih =>
    obtain ⟨hfresh, hlater⟩ := List.nodup_cons.mp h
    by_cases hkey : e.1 = key
    · subst hkey
      have hmem : e.1 ∈ keys (insert es e.1 e.2) := by
        rw [keys_insert]
        split <;> simp_all
      have hthere : insert (overlay (insert es e.1 e.2) later) e.1 value =
          overlay (insert (insert es e.1 e.2) e.1 value) later := insert_overlay_of_mem hmem hfresh
      rw [insert_insert] at hthere
      simp only [insert, if_pos]
      exact hthere.symm
    · simp only [insert, if_neg hkey]
      exact ih (insert es e.1 e.2) hlater

theorem keys_cons (e : String × α) (es : Entries α) : keys (e :: es) = e.1 :: keys es :=
  rfl

theorem keys_map {β : Type} (f : String × α → β) :
    keys (es.map fun e => (e.1, f e)) = keys es := by
  simp [keys]

theorem get?_append_of_not_mem (h : key ∉ keys front) (es : Entries α) :
    get? (front ++ es) key = get? es key := by
  induction front with
  | nil => rfl
  | cons e front ih =>
    have hne : e.1 ≠ key := fun heq => h (by simp [keys, heq])
    have hfront : key ∉ keys front := fun hmem => h (List.mem_cons_of_mem _ hmem)
    rw [List.cons_append, get?_cons, if_neg hne, ih hfront]

theorem insert_append_of_not_mem (h : key ∉ keys front) (es : Entries α) (value : α) :
    insert (front ++ es) key value = front ++ insert es key value := by
  induction front with
  | nil => rfl
  | cons e front ih =>
    have hne : e.1 ≠ key := fun heq => h (by simp [keys, heq])
    have hfront : key ∉ keys front := fun hmem => h (List.mem_cons_of_mem _ hmem)
    rw [List.cons_append, insert, if_neg hne, ih hfront, List.cons_append]

theorem get?_eq_none (h : key ∉ keys es) : get? es key = none := by
  simpa using get?_append_of_not_mem h []

theorem get?_eq_none_iff : get? es key = none ↔ key ∉ keys es := by
  rw [← contains_iff, contains, Option.not_isSome_iff_eq_none]

/-- Entries are cut at the first one of a key. -/
theorem exists_cut (h : get? es key = some value) :
    ∃ front back, es = front ++ (key, value) :: back ∧ key ∉ keys front := by
  induction es with
  | nil => cases h
  | cons e es ih =>
    rw [get?_cons] at h
    by_cases hkey : e.1 = key
    · rw [if_pos hkey] at h
      cases h
      subst hkey
      exact ⟨[], es, rfl, List.not_mem_nil⟩
    · rw [if_neg hkey] at h
      obtain ⟨front, back, rfl, hfresh⟩ := ih h
      refine ⟨e :: front, back, rfl, fun hmem => ?_⟩
      rcases List.mem_cons.mp hmem with heq | hmem
      · exact hkey heq.symm
      · exact hfresh hmem

theorem insert_of_not_mem (h : key ∉ keys es) (value : α) :
    insert es key value = es ++ [(key, value)] := by
  simpa [insert] using insert_append_of_not_mem h [] value

theorem mem_keys_insert {other : String} :
    other ∈ keys (insert es key value) ↔ other = key ∨ other ∈ keys es := by
  rw [keys_insert]
  split
  · rename_i hkey
    constructor
    · exact .inr
    · rintro (rfl | h)
      · exact hkey
      · exact h
  · rw [List.mem_append, List.mem_singleton, or_comm]

theorem mem_keys_ofPairs {pairs : List (String × α)} (h : key ∈ keys (ofPairs pairs)) :
    key ∈ keys pairs := by
  suffices hover : ∀ es, key ∈ keys (overlay es pairs) → key ∈ keys es ∨ key ∈ keys pairs from
    (hover [] h).resolve_left List.not_mem_nil
  unfold overlay
  clear h
  induction pairs with
  | nil => exact fun es h => .inl h
  | cons e pairs ih =>
    intro es h
    rw [List.foldl_cons] at h
    rw [keys_cons, List.mem_cons]
    rcases ih _ h with h | h
    · exact (mem_keys_insert.mp h).elim (fun h => .inr (.inl h)) .inl
    · exact .inr (.inr h)

theorem mem_of_mem_insert {e : String × α} (h : e ∈ insert es key value) :
    e = (key, value) ∨ e ∈ es := by
  induction es with
  | nil => simpa [insert] using h
  | cons d es ih =>
    by_cases hkey : d.1 = key
    · simp only [insert, if_pos hkey] at h
      rcases List.mem_cons.mp h with rfl | h
      · exact .inl (by rw [hkey])
      · exact .inr (List.mem_cons_of_mem d h)
    · simp only [insert, if_neg hkey] at h
      rcases List.mem_cons.mp h with rfl | h
      · exact .inr List.mem_cons_self
      · exact (ih h).imp_right (List.mem_cons_of_mem d)

theorem mem_of_get? (h : get? es key = some value) : (key, value) ∈ es := by
  obtain ⟨front, back, rfl, -⟩ := exists_cut h
  simp

/-- Entries without a repeated key are kept as they are. -/
theorem ofPairs_eq (h : (keys es).Nodup) : ofPairs es = es := by
  suffices hover : ∀ front, (keys (front ++ es)).Nodup → overlay front es = front ++ es from
    hover [] h
  unfold overlay
  induction es with
  | nil => simp
  | cons e es ih =>
    intro front hfront
    have hfresh : e.1 ∉ keys front := by
      intro hmem
      rw [keys, List.map_append, List.nodup_append] at hfront
      exact hfront.2.2 e.1 hmem e.1 List.mem_cons_self rfl
    have hes : (keys es).Nodup := (List.nodup_cons.mp h).2
    rw [List.foldl_cons, insert_of_not_mem hfresh, ih hes, List.append_assoc, List.singleton_append]
    simpa using hfront

/-- Of entries put over others those decide that have the key. -/
theorem get?_overlay (es : Entries α) (h : (keys later).Nodup) (key : String) :
    get? (overlay es later) key = (get? later key).or (get? es key) := by
  induction later generalizing es with
  | nil => rfl
  | cons e later ih =>
    obtain ⟨hfresh, hlater⟩ := List.nodup_cons.mp h
    have hover : overlay es (e :: later) = overlay (insert es e.1 e.2) later := rfl
    rw [hover, ih _ hlater, get?_insert, get?_cons]
    by_cases hkey : e.1 = key
    · subst hkey
      have hnone : get? later e.1 = none := get?_eq_none hfresh
      simp [hnone]
    · simp [hkey]

end FieldRules.Entries
