import FieldRules.Text.Split

/-! Cutting a joined text gives its parts back, trimming leaves a text without blank ends, and
erasing items makes it shorter. -/
namespace FieldRules.Text

section

-- the second character of the separator occurs neither in a part nor at the start of the separator
variable {a m : Char} {sep : List Char}

private theorem isPrefixOf_eq_false {cs : List Char} (c : Char) (h : cs.head? ≠ some m) :
    (a :: m :: sep).isPrefixOf (c :: cs) = false := by
  cases cs with
  | nil => simp [List.isPrefixOf]
  | cons d cs =>
    have hd : m ≠ d := fun hmd => h (by simp [hmd])
    simp [List.isPrefixOf, hd]

theorem piecesAfter_skip (sep : List Char) (front rest : List Char) :
    piecesAfter sep front.length (front ++ rest) = piecesAfter sep 0 rest := by
  induction front with
  | nil => rfl
  | cons c front ih => simpa [piecesAfter] using ih

theorem piecesAfter_sep (a : Char) (sep rest : List Char) :
    piecesAfter (a :: sep) 0 (a :: sep ++ rest) = [] :: piecesAfter (a :: sep) 0 rest := by
  have hp : (a :: sep).isPrefixOf (a :: (sep ++ rest)) = true := by
    simp [List.isPrefixOf_iff_prefix]
  rw [List.cons_append, piecesAfter, if_pos hp]
  simpa using piecesAfter_skip (a :: sep) sep rest

theorem piecesAfter_part {part : List Char} (hm : m ∉ part) :
    piecesAfter (a :: m :: sep) 0 part = [part] := by
  induction part with
  | nil => rfl
  | cons c part ih =>
    have hm : m ∉ part := fun h => hm (List.mem_cons_of_mem c h)
    have hhead : part.head? ≠ some m := fun h => hm (List.mem_of_head? h)
    rw [piecesAfter, isPrefixOf_eq_false c hhead, if_neg Bool.false_ne_true, ih hm]
    rfl

theorem piecesAfter_append {part : List Char} (ham : a ≠ m) (hm : m ∉ part) (rest : List Char) :
    piecesAfter (a :: m :: sep) 0 (part ++ (a :: m :: sep ++ rest)) =
      part :: piecesAfter (a :: m :: sep) 0 rest := by
  induction part with
  | nil => exact piecesAfter_sep a (m :: sep) rest
  | cons c part ih =>
    have hm : m ∉ part := fun h => hm (List.mem_cons_of_mem c h)
    have hhead : (part ++ (a :: m :: sep ++ rest)).head? ≠ some m := by
      cases part with
      | nil => simpa using ham
      | cons d part => exact fun h => hm (by simp_all)
    rw [List.cons_append, piecesAfter, isPrefixOf_eq_false c hhead, if_neg Bool.false_ne_true,
      ih hm]
    rfl

/-- Parts without the second character of the separator are the pieces of the text that they
make. -/
theorem piecesAfter_intercalate {parts : List (List Char)} (ham : a ≠ m) (hne : parts ≠ [])
    (hm : ∀ p ∈ parts, m ∉ p) :
    piecesAfter (a :: m :: sep) 0 ((a :: m :: sep).intercalate parts) = parts := by
  induction parts with
  | nil => exact absurd rfl hne
  | cons p parts ih =>
    obtain ⟨hp, hparts⟩ := List.forall_mem_cons.mp hm
    cases parts with
    | nil => rw [List.intercalate_singleton, piecesAfter_part hp]
    | cons q parts =>
      rw [List.intercalate_cons_cons, List.append_assoc, piecesAfter_append ham hp,
        ih (by simp) hparts]

end

theorem split_join {a m : Char} {sep : List Char} {parts : List String} (ham : a ≠ m)
    (hne : parts ≠ []) (hm : ∀ p ∈ parts, m ∉ p.toList) :
    split (String.ofList (a :: m :: sep)) (join (String.ofList (a :: m :: sep)) parts) = parts := by
  unfold split join
  rw [String.toList_ofList, String.toList_ofList,
    piecesAfter_intercalate ham (by simpa using hne) (by simpa using hm), List.map_map]
  simp

theorem mem_toList_join {sep : String} {parts : List String} {c : Char}
    (h : c ∈ (join sep parts).toList) : c ∈ sep.toList ∨ ∃ p ∈ parts, c ∈ p.toList := by
  unfold join at h
  rw [String.toList_ofList] at h
  induction parts with
  | nil => simp at h
  | cons p parts ih =>
    cases parts with
    | nil => exact .inr ⟨p, by simp, by simpa using h⟩
    | cons q parts =>
      simp only [List.map_cons, List.intercalate_cons_cons, List.mem_append] at h
      rcases h with (h | h) | h
      · exact .inr ⟨p, by simp, h⟩
      · exact .inl h
      · refine (ih h).imp_right ?_
        rintro ⟨p', hp', hc⟩
        exact ⟨p', List.mem_cons_of_mem _ hp', hc⟩

/-- A text starts and ends with characters that are not blank, if it has any. -/
def Trimmed (s : String) : Prop :=
  s.toList.head?.all (!isBlank ·) = true ∧ s.toList.getLast?.all (!isBlank ·) = true

instance (s : String) : Decidable (Trimmed s) :=
  inferInstanceAs (Decidable (_ ∧ _))

private theorem dropWhile_eq_self {cs : List Char} (h : cs.head?.all (!isBlank ·) = true) :
    cs.dropWhile isBlank = cs := by
  cases cs with
  | nil => rfl
  | cons c cs =>
    have hc : isBlank c = false := by simpa using h
    rw [List.dropWhile_cons_of_neg (by simp [hc])]

theorem Trimmed.trim_eq {s : String} (h : Trimmed s) : trim s = s := by
  unfold trim trimChars
  rw [dropWhile_eq_self h.1, dropWhile_eq_self (by simpa using h.2)]
  simp

theorem startsWith_append (start s : String) : startsWith start (start ++ s) = true := by
  simp [startsWith, List.isPrefixOf_iff_prefix]

theorem getElem?_toList_append {s : String} {i : Nat} {c : Char} (h : s.toList[i]? = some c)
    (t : String) : (s ++ t).toList[i]? = some c := by
  obtain ⟨hlt, -⟩ := List.getElem?_eq_some_iff.mp h
  rw [String.toList_append, List.getElem?_append_left hlt, h]

/-- A text does not start with one from which it differs in a character. -/
theorem startsWith_eq_false {start s : String} {i : Nat} {c d : Char}
    (hc : start.toList[i]? = some c) (hd : s.toList[i]? = some d) (hcd : c ≠ d) :
    startsWith start s = false := by
  refine Bool.eq_false_iff.mpr fun hs => ?_
  obtain ⟨rest, hrest⟩ := List.isPrefixOf_iff_prefix.mp hs
  obtain ⟨hlt, -⟩ := List.getElem?_eq_some_iff.mp hc
  rw [← hrest, List.getElem?_append_left hlt, hc] at hd
  exact hcd (Option.some.inj hd)

theorem occursIn_iff {part cs : List Char} : occursIn part cs = true ↔ part <:+: cs := by
  induction cs with
  | nil => simp [occursIn]
  | cons c cs ih => simp [occursIn, ih, List.infix_cons_iff]

theorem eraseItemsAfter_sublist (item : List Char) (skip : Nat) (cs : List Char) :
    (eraseItemsAfter item skip cs).Sublist cs := by
  induction cs generalizing skip with
  | nil => simp [eraseItemsAfter]
  | cons c cs ih =>
    cases skip with
    | succ skip => exact (ih skip).cons c
    | zero =>
      unfold eraseItemsAfter
      split
      · exact (ih _).cons c
      · exact (ih 0).cons_cons c

theorem trimChars_sublist (cs : List Char) : (trimChars cs).Sublist cs := by
  unfold trimChars
  have hfront := List.dropWhile_sublist (l := cs) isBlank
  have hback := List.dropWhile_sublist (l := (cs.dropWhile isBlank).reverse) isBlank
  have hback := hback.reverse
  rw [List.reverse_reverse] at hback
  exact hback.trans hfront

/-- Erasing items makes a text shorter or leaves it as it is. -/
theorem eraseItems_eq_or_lt (item s : String) :
    eraseItems item s = s ∨ (eraseItems item s).toList.length < s.toList.length := by
  have hsub : (eraseItems item s).toList.Sublist s.toList := by
    rw [eraseItems, String.toList_ofList]
    exact (trimChars_sublist _).trans (eraseItemsAfter_sublist _ _ _)
  rcases Nat.lt_or_eq_of_le hsub.length_le with hlt | heq
  · exact .inr hlt
  · exact .inl (String.toList_inj.mp (hsub.eq_of_length heq))

end FieldRules.Text
