import FieldRules.Proofs.Json.Number
import FieldRules.Proofs.Text.Split
import FieldRules.Proofs.Value.ListText
import Mathlib.Data.Prod.Lex

/-! How much adding items to a value, or taking items out of it, can still change. What is added is
kept until the value takes another form, and there are only a few of those; what is taken out makes
the value smaller. -/
namespace FieldRules.Value

variable {v w : Value} {xs ys : List Value} {item other s t : String}

/-- A running text gets an item after its end, unless it has it. -/
theorem exists_addItem_text (h : Json.decodeList s = none) (item : String) : ∃ t,
    addItem (.text s) item = .ok (.text t) ∧ item.toList <:+: t.toList ∧ s.toList <:+: t.toList ∧
      (item.toList <:+: s.toList → t = s) := by
  refine ⟨_, by simp only [addItem, h]; rfl, ?_⟩
  simp only [Text.occursIn_iff]
  split_ifs with hoccurs hempty
  · exact ⟨hoccurs, List.infix_refl _, fun _ => rfl⟩
  · exact ⟨List.infix_refl _, by simp [hempty], fun h => absurd h hoccurs⟩
  · refine ⟨?_, ?_, fun h => absurd h hoccurs⟩
    · exact ⟨(s ++ " ").toList, [], by simp⟩
    · exact ⟨[], (" " ++ item).toList, by simp⟩

/-- The item is there, and adding it changes nothing. -/
def Keeps (v : Value) (item : String) : Prop :=
  v.addItem item = .ok v

theorem keeps_list (h : ∀ x ∈ xs, x.Showable) :
    Keeps (.list xs) item ↔ xs.any (·.shown == item) = true := by
  rw [Keeps, addItem_list h, Except.ok.injEq, list.injEq]
  refine ⟨fun heq => ?_, fun hany => if_pos hany⟩
  rw [← heq]
  exact any_shown_adjoin xs item

theorem keeps_listText (h : Json.decodeList s = some xs) :
    Keeps (.text s) item ↔ xs.any (·.shown == item) = true := by
  obtain ⟨t, hadd, ht, hsame, -⟩ :=
    exists_addItem_listText h (Json.durable_decodeList h) item
  rw [Keeps, hadd, Except.ok.injEq, text.injEq]
  refine ⟨fun heq => ?_, hsame⟩
  rw [heq, h, Option.some.injEq] at ht
  rw [ht]
  exact any_shown_adjoin xs item

theorem keeps_text (h : Json.decodeList s = none) :
    Keeps (.text s) item ↔ item.toList <:+: s.toList := by
  obtain ⟨t, hadd, ht, -, hsame⟩ := exists_addItem_text h item
  rw [Keeps, hadd, Except.ok.injEq, text.injEq]
  exact ⟨fun heq => heq ▸ ht, hsame⟩

/-- The forms of a value that adding items goes through, the last of them first: a list, the text
of a list, a running text, and anything else. -/
def phase : Value → ℕ
  | .list _ => 0
  | .text s => if (Json.decodeList s).isSome then 1 else 2
  | _ => 3

/-- Adding an item leads to a later form, or the item is kept from then on along with all others
that were. -/
theorem phase_addItem (hv : v.Writable) (h : v.addItem item = .ok w) : w.phase < v.phase ∨
    w.phase = v.phase ∧ w.Keeps item ∧ ∀ other, v.Keeps other → w.Keeps other := by
  cases v with
  | list xs =>
    have hxs := writable_list.mp hv
    have hmore := showable_of_writable (writable_adjoin item hxs)
    have hxs := showable_of_writable hxs
    rw [addItem_list hxs] at h
    cases h
    refine .inr ⟨rfl, ?_, fun other hother => ?_⟩
    · exact (keeps_list hmore).mpr (any_shown_adjoin xs item)
    · exact (keeps_list hmore).mpr (any_shown_adjoin_of_any ((keeps_list hxs).mp hother))
  | text s =>
    cases hs : Json.decodeList s with
    | some xs =>
      obtain ⟨t, hadd, ht, -⟩ :=
        exists_addItem_listText hs (Json.durable_decodeList hs) item
      rw [hadd] at h
      cases h
      refine .inr ⟨by simp [phase, hs, ht], ?_, fun other hother => ?_⟩
      · exact (keeps_listText ht).mpr (any_shown_adjoin xs item)
      · exact (keeps_listText ht).mpr (any_shown_adjoin_of_any ((keeps_listText hs).mp hother))
    | none =>
      obtain ⟨t, hadd, hitem, hsub, -⟩ := exists_addItem_text hs item
      rw [hadd] at h
      cases h
      cases ht : Json.decodeList t with
      | some ys => exact .inl (by simp [phase, hs, ht])
      | none =>
        refine .inr ⟨by simp [phase, hs, ht], (keeps_text ht).mpr hitem, fun other hother => ?_⟩
        exact (keeps_text ht).mpr (((keeps_text hs).mp hother).trans hsub)
  | _ =>
    cases h
    refine .inl ?_
    unfold phase
    dsimp only
    split_ifs <;> omega

/-- How much of a value there is to take out: the form of the value, and the number of its items or
characters. The text of a list counts for more as long as it is not the one that is written for the
list. -/
def bulk : Value → ℕ ×ₗ ℕ
  | .list xs => toLex (1, xs.length)
  | .text s =>
    if s = "" then toLex (0, 0)
    else match Json.decodeList s with
      | some xs => toLex (1, 2 * xs.length + if Json.encode (.list xs) = .ok s then 0 else 1)
      | none => toLex (2, s.toList.length)
  | _ => toLex (1, 0)

theorem bulk_listText (h : Json.decodeList s = some xs) : bulk (.text s) =
    toLex (1, 2 * xs.length + if Json.encode (.list xs) = .ok s then 0 else 1) := by
  have hne : s ≠ "" := by
    rintro rfl
    cases h
  simp [bulk, hne, h]

theorem bulk_text (hne : s ≠ "") (h : Json.decodeList s = none) :
    bulk (.text s) = toLex (2, s.toList.length) := by
  simp [bulk, hne, h]

theorem bulk_empty_lt (hv : v ≠ .text "") : bulk (.text "") < v.bulk := by
  have hempty : bulk (.text "") = toLex (0, 0) := rfl
  have hpos : 0 < (ofLex v.bulk).1 := by
    cases v with
    | text s =>
      have hne : s ≠ "" := fun h => hv (by rw [h])
      cases hs : Json.decodeList s with
      | some xs => simp [bulk_listText hs]
      | none => simp [bulk_text hne hs]
    | _ => simp [bulk]
  rw [hempty, Prod.Lex.lt_iff]
  exact .inl hpos

theorem bulk_removeItem?_listText {remains : Bool} (hs : Json.decodeList s = some xs)
    (h : removeItem? (.text s) item = .ok (some (w, remains))) :
    w = .text s ∨ w.bulk < bulk (.text s) := by
  obtain ⟨t, hremove, ht⟩ :=
    exists_removeItem?_listText hs (Json.durable_decodeList hs) item
  rw [hremove] at h
  cases h
  rw [bulk_listText hs, bulk_listText ht.decode, if_pos ht.encode]
  have hsub : (discard xs item).Sublist xs := List.filter_sublist
  rcases hsub.length_le.lt_or_eq with hlt | heq
  · exact .inr (Prod.Lex.lt_iff.mpr (.inr ⟨rfl, by simp only [ofLex_toLex]; omega⟩))
  · rw [hsub.eq_of_length heq] at ht ⊢
    by_cases hwritten : Json.encode (.list xs) = .ok s
    · rw [ht.encode] at hwritten
      cases hwritten
      exact .inl rfl
    · rw [if_neg hwritten]
      exact .inr (Prod.Lex.lt_iff.mpr (.inr ⟨rfl, Nat.lt_succ_self _⟩))

theorem bulk_eraseItems (hs : Json.decodeList s = none) (item : String) :
    Text.eraseItems item s = s ∨ bulk (.text (Text.eraseItems item s)) < bulk (.text s) := by
  have hsmaller := Text.eraseItems_eq_or_lt item s
  generalize Text.eraseItems item s = t at hsmaller ⊢
  refine hsmaller.imp_right fun hlt => ?_
  have hne : s ≠ "" := by
    rintro rfl
    simp at hlt
  by_cases hempty : t = ""
  · rw [hempty]
    exact bulk_empty_lt (by simpa using hne)
  · rw [bulk_text hne hs, Prod.Lex.lt_iff]
    cases hread : Json.decodeList t with
    | some ys => exact .inl (by simp [bulk_listText hread])
    | none =>
      rw [bulk_text hempty hread]
      exact .inr ⟨rfl, hlt⟩

/-- Taking an item out leaves less, or all as it is. -/
theorem bulk_removeItem? {remains : Bool} (hv : v.Writable)
    (h : v.removeItem? item = .ok (some (w, remains))) : w = v ∨ w.bulk < v.bulk := by
  cases v with
  | list xs =>
    rw [removeItem?_list (showable_of_writable (writable_list.mp hv))] at h
    cases h
    have hsub : (discard xs item).Sublist xs := List.filter_sublist
    rcases hsub.length_le.lt_or_eq with hlt | heq
    · exact .inr (Prod.Lex.lt_iff.mpr (.inr ⟨rfl, hlt⟩))
    · exact .inl (by rw [hsub.eq_of_length heq])
  | text s =>
    cases hs : Json.decodeList s with
    | some xs => exact bulk_removeItem?_listText hs h
    | none =>
      simp only [removeItem?, hs] at h
      cases h
      exact (bulk_eraseItems hs item).imp_left (congrArg text)
  | _ => cases h

end FieldRules.Value
