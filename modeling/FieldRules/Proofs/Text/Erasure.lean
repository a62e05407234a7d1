import FieldRules.Proofs.Text.Split
import Mathlib.Data.List.Infix
import Mathlib.Tactic.SplitIfs

/-! What is left of a running text when an item is erased from it. What stands around an occurrence
comes together when it goes, and may make up the item anew. It does not if no occurrence is followed
by a character that the item has after its first. -/
namespace FieldRules.Text

variable {item cs left rest s : List Char}

theorem exists_of_itemLength? {n : ℕ} (h : itemLength? item cs = some n) :
    ∃ blanks rest, cs = blanks ++ item ++ rest ∧ n = (blanks ++ item).length := by
  induction cs generalizing n with
  | nil =>
    unfold itemLength? at h
    split_ifs at h with hitem
    cases h
    exact ⟨[], [], by simp [List.isEmpty_iff.mp hitem]⟩
  | cons c cs ih =>
    unfold itemLength? at h
    split at h
    · rename_i m hm
      cases h
      split_ifs at hm
      obtain ⟨blanks, rest, rfl, rfl⟩ := ih hm
      exact ⟨c :: blanks, rest, rfl, rfl⟩
    · split_ifs at h with hprefix
      cases h
      obtain ⟨rest, hrest⟩ := List.isPrefixOf_iff_prefix.mp hprefix
      exact ⟨[], rest, hrest.symm, rfl⟩

theorem not_prefix_of_itemLength? {c : Char} (h : itemLength? item (c :: cs) = none) :
    ¬ item <+: c :: cs := by
  intro hprefix
  unfold itemLength? at h
  split at h
  · cases h
  · rw [if_pos (List.isPrefixOf_iff_prefix.mpr hprefix)] at h
    cases h

theorem eraseItemsAfter_skip (item front rest : List Char) :
    eraseItemsAfter item front.length (front ++ rest) = eraseItemsAfter item 0 rest := by
  induction front with
  | nil => rfl
  | cons c front ih => simpa [eraseItemsAfter] using ih

/-- An item is erased from a text as the text is read from the left. -/
inductive Erased (item : List Char) : List Char → List Char → Prop
  | nil : Erased item [] []
  | erase (blanks : List Char) {rest left : List Char} (h : Erased item rest left) :
    Erased item (blanks ++ item ++ rest) left
  | keep {c : Char} {cs left : List Char} (hc : ¬ item <+: c :: cs) (h : Erased item cs left) :
    Erased item (c :: cs) (c :: left)

theorem erased_eraseItemsAfter (hne : item ≠ []) (cs : List Char) :
    Erased item cs (eraseItemsAfter item 0 cs) := by
  induction hn : cs.length using Nat.strong_induction_on generalizing cs with
  | _ n ih =>
    subst hn
    cases cs with
    | nil => exact .nil
    | cons c cs =>
      cases h : itemLength? item (c :: cs) with
      | none =>
        simp only [eraseItemsAfter, h]
        exact .keep (not_prefix_of_itemLength? h) (ih _ (by simp) cs rfl)
      | some n =>
        obtain ⟨blanks, rest, hcs, rfl⟩ := exists_of_itemLength? h
        have hrest : eraseItemsAfter item 0 (c :: cs) = eraseItemsAfter item 0 rest := by
          simp only [eraseItemsAfter, h]
          cases hfront : blanks ++ item with
          | nil => exact absurd (List.append_eq_nil_iff.mp hfront).2 hne
          | cons d front =>
            rw [hfront] at hcs
            obtain ⟨-, rfl⟩ := List.cons_eq_cons.mp hcs
            exact eraseItemsAfter_skip item front rest
        have hshorter : rest.length < (c :: cs).length := by
          have hpos : 0 < item.length := List.length_pos_iff.mpr hne
          simp only [hcs, List.length_append]
          omega
        rw [hrest, hcs]
        exact .erase blanks (ih _ hshorter rest rfl)

/-- No occurrence of the item in the text is followed by a character that the item has after its
first. -/
def Parted (item s : List Char) : Prop :=
  ∀ c back, item ++ c :: back <:+ s → c ∉ item.tail

namespace Erased

/-- What is left after an occurrence starts with a character that follows one. -/
theorem head?_not_mem (h : Erased item rest left) (hs : item ++ rest <:+ s)
    (hp : Parted item s) : ∀ c ∈ left.head?, c ∉ item.tail := by
  induction h with
  | nil => simp
  | @erase blanks rest left _ ih =>
    refine ih (List.IsSuffix.trans ⟨item ++ blanks, ?_⟩ hs)
    simp
  | @keep c cs left _ _ _ =>
    simp only [List.head?_cons, Option.mem_some_iff, forall_eq']
    exact hp c cs hs

/-- What is left starts with characters of the item only where the text does. -/
theorem prefix_of_prefix {part : List Char} (h : Erased item cs left) (hs : cs <:+ s)
    (hp : Parted item s) (hpart : part ⊆ item.tail) (hleft : part <+: left) : part <+: cs := by
  induction h generalizing part with
  | nil => exact hleft
  | @erase blanks rest left h _ =>
    cases part with
    | nil => exact List.nil_prefix
    | cons c part =>
      obtain ⟨more, hmore⟩ := hleft
      have hsuffix : item ++ rest <:+ s := List.IsSuffix.trans ⟨blanks, by simp⟩ hs
      have hc : c ∉ item.tail := h.head?_not_mem hsuffix hp c (by simp [← hmore])
      exact absurd (hpart List.mem_cons_self) hc
  | @keep c cs left _ h ih =>
    cases part with
    | nil => exact List.nil_prefix
    | cons d part =>
      obtain ⟨rfl, htail⟩ := List.cons_prefix_cons.mp hleft
      have hcs : cs <:+ s := (List.suffix_cons d cs).trans hs
      have hmore := ih hcs (fun _ hmem => hpart (List.mem_cons_of_mem d hmem)) htail
      exact List.cons_prefix_cons.mpr ⟨rfl, hmore⟩

theorem not_infix_left (h : Erased item cs left) (hne : item ≠ []) (hs : cs <:+ s)
    (hp : Parted item s) : ¬ item <:+: left := by
  induction h with
  | nil => simpa using hne
  | @erase blanks rest left _ ih => exact ih (List.IsSuffix.trans ⟨blanks ++ item, rfl⟩ hs)
  | @keep c cs left hc h ih =>
    have hcs : cs <:+ s := (List.suffix_cons c cs).trans hs
    intro hwithin
    rcases List.infix_cons_iff.mp hwithin with hstart | hwithin
    · -- an occurrence at this place would have been erased
      cases item with
      | nil => exact hne rfl
      | cons d tail =>
        obtain ⟨rfl, htail⟩ := List.cons_prefix_cons.mp hstart
        have hmore := h.prefix_of_prefix hcs hp (List.Subset.refl tail) htail
        exact hc (List.cons_prefix_cons.mpr ⟨rfl, hmore⟩)
    · exact ih hcs hwithin

end Erased

theorem trimChars_infix_self (cs : List Char) : trimChars cs <:+: cs := by
  have hback : ((cs.dropWhile isBlank).reverse.dropWhile isBlank).reverse <+:
      cs.dropWhile isBlank :=
    List.reverse_suffix.mp (by simpa using List.dropWhile_suffix isBlank)
  exact hback.isInfix.trans (List.dropWhile_suffix isBlank).isInfix

/-- An item is gone from a text when it has been erased, if no occurrence was followed by one of its
characters after the first. -/
theorem not_infix_eraseItems {item s : String} (hne : item ≠ "")
    (hp : Parted item.toList s.toList) : ¬ item.toList <:+: (eraseItems item s).toList := by
  have hne : item.toList ≠ [] := by simpa using hne
  rw [eraseItems, String.toList_ofList]
  intro hwithin
  exact (erased_eraseItemsAfter hne s.toList).not_infix_left hne (List.suffix_refl _) hp
    (hwithin.trans (trimChars_infix_self _))

end FieldRules.Text
