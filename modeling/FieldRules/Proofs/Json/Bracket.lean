import FieldRules.Proofs.Value.Decoded
import Mathlib.Data.List.Infix
import Mathlib.Data.List.TakeWhile

/-! The end of the text of a list. Tokens are cut off the front of a text, and the last token of a
list is its closing bracket, so nothing but space comes after the last bracket. -/
namespace FieldRules.Json

variable {cs rest : List Char} {v : Value}

theorem quotedUnits_suffix {ns : List ℕ} (h : quotedUnits cs = some (ns, rest)) : rest <:+ cs := by
  induction cs using quotedUnits.induct generalizing ns with
  | case1 => cases h
  | case2 rest' =>
    cases h
    exact List.suffix_cons _ _
  | case3 a b c d cs ih =>
    rw [quotedUnits] at h
    obtain ⟨n, -, h⟩ := Option.bind_eq_some_iff.mp h
    obtain ⟨⟨ms, rest'⟩, hread, h⟩ := Option.bind_eq_some_iff.mp h
    cases h
    exact (ih hread).trans ⟨['\\', 'u', a, b, c, d], rfl⟩
  | case4 c cs hu ih =>
    rw [quotedUnits] at h
    · obtain ⟨d, -, h⟩ := Option.bind_eq_some_iff.mp h
      obtain ⟨⟨ms, rest'⟩, hread, h⟩ := Option.bind_eq_some_iff.mp h
      cases h
      exact (ih hread).trans ⟨['\\', c], rfl⟩
    · exact hu
  | case5 c cs hquote hu hslash hlow =>
    rw [quotedUnits, if_pos hlow] at h
    · cases h
    · exact hquote
    · exact hu
    · exact hslash
  | case6 c cs hquote hu hslash hlow ih =>
    rw [quotedUnits, if_neg hlow] at h
    · obtain ⟨⟨ms, rest'⟩, hread, h⟩ := Option.bind_eq_some_iff.mp h
      cases h
      exact (ih hread).trans (List.suffix_cons _ _)
    · exact hquote
    · exact hu
    · exact hslash

theorem after?_suffix {front : String} (h : after? front cs = some rest) : rest <:+ cs := by
  unfold after? at h
  split_ifs at h
  cases h
  exact List.drop_suffix _ _

theorem wholePart?_suffix {ds : List Char} (h : wholePart? cs = some (ds, rest)) :
    rest <:+ cs := by
  unfold wholePart? at h
  split at h
  · cases h
    exact List.suffix_cons _ _
  · split_ifs at h
    cases h
    exact List.dropWhile_suffix _
  · cases h

theorem fraction_suffix (cs : List Char) : (fraction cs).2 <:+ cs := by
  unfold fraction
  split
  · split_ifs
    · exact List.suffix_refl _
    · exact (List.dropWhile_suffix _).trans (List.suffix_cons _ _)
  · exact List.suffix_refl _

theorem exponent?_suffix {e : ℤ} (h : exponent? cs = some (e, rest)) : rest <:+ cs := by
  unfold exponent? at h
  split at h
  · rename_i c cs
    split_ifs at h
    split at h
    rename_i sign ds hsign
    have hds : ds <:+ cs := by
      split at hsign <;> cases hsign
      · exact List.suffix_cons _ _
      · exact List.suffix_cons _ _
      · exact List.suffix_refl _
    split_ifs at h
    cases h
    exact ((List.dropWhile_suffix _).trans hds).trans (List.suffix_cons _ _)
  · cases h

theorem number?_suffix {negative : Bool} (h : number? negative cs = some (v, rest)) :
    rest <:+ cs := by
  unfold number? at h
  obtain ⟨⟨whole, cs'⟩, hwhole, h⟩ := Option.bind_eq_some_iff.mp h
  have hcs := wholePart?_suffix hwhole
  have hfraction := (fraction_suffix cs').trans hcs
  dsimp only at h
  split at h
  · rename_i hexponent
    cases h
    exact (exponent?_suffix hexponent).trans hfraction
  · split at h
    · split at h
      · cases h
        exact hfraction
      · cases h
    · cases h
      exact hfraction

/-- A token is cut off the front of a text. -/
theorem token?_suffix {t : Token} (h : token? cs = some (t, rest)) : rest <:+ cs := by
  unfold token? at h
  split at h
  case h_7 =>
    obtain ⟨⟨ns, rest'⟩, hread, h⟩ := Option.map_eq_some_iff.mp h
    cases h
    exact (quotedUnits_suffix hread).trans (List.suffix_cons _ _)
  case h_8 =>
    split at h
    · rename_i hword
      cases h
      obtain ⟨⟨w, v⟩, -, hword⟩ := List.exists_of_findSome?_eq_some hword
      obtain ⟨rest', hafter, hword⟩ := Option.map_eq_some_iff.mp hword
      cases hword
      exact after?_suffix hafter
    · obtain ⟨⟨v, rest'⟩, hnumber, h⟩ := Option.map_eq_some_iff.mp h
      cases h
      split at hnumber
      · exact (number?_suffix hnumber).trans (List.suffix_cons _ _)
      · exact number?_suffix hnumber
  all_goals
    cases h
    exact List.suffix_cons _ _

theorem eq_of_token?_closeList (h : token? cs = some (.closeList, rest)) : cs = ']' :: rest := by
  unfold token? at h
  split at h
  case h_2 =>
    cases h
    rfl
  case h_7 => simp at h
  case h_8 =>
    split at h
    · cases h
    · simp at h
  all_goals cases h

theorem all_isSpace_of_tokensWithin {fuel : ℕ} (h : tokensWithin fuel cs = some []) :
    cs.all isSpace = true := by
  cases fuel with
  | zero =>
    unfold tokensWithin at h
    split_ifs at h with hspace
    exact hspace
  | succ fuel =>
    unfold tokensWithin at h
    split at h
    · rename_i hcs
      exact List.all_eq_true.mpr (List.dropWhile_eq_nil_iff.mp hcs)
    · obtain ⟨⟨t, rest⟩, -, h⟩ := Option.bind_eq_some_iff.mp h
      obtain ⟨ts, -, h⟩ := Option.bind_eq_some_iff.mp h
      cases h

/-- The last token of a text, if it closes a list, stands at the end of the text. -/
theorem exists_of_tokensWithin {fuel : ℕ} {front : List Token}
    (h : tokensWithin fuel cs = some (front ++ [.closeList])) :
    ∃ before after, cs = before ++ ']' :: after ∧ after.all isSpace = true := by
  induction fuel generalizing cs front with
  | zero =>
    unfold tokensWithin at h
    split_ifs at h
    simp at h
  | succ fuel ih =>
    unfold tokensWithin at h
    split at h
    · simp at h
    · rename_i c cs' hcs
      have hsuffix : c :: cs' <:+ cs := hcs ▸ List.dropWhile_suffix isSpace
      obtain ⟨⟨t, rest⟩, ht, h⟩ := Option.bind_eq_some_iff.mp h
      obtain ⟨ts, hts, h⟩ := Option.bind_eq_some_iff.mp h
      cases front with
      | nil =>
        cases h
        obtain ⟨before, rfl⟩ := hsuffix
        rw [eq_of_token?_closeList ht]
        exact ⟨before, rest, rfl, all_isSpace_of_tokensWithin hts⟩
      | cons u front =>
        cases h
        obtain ⟨before, rfl⟩ := (token?_suffix ht).trans hsuffix
        obtain ⟨middle, after, rfl, hafter⟩ := ih hts
        exact ⟨before ++ middle, after, by simp, hafter⟩

/-- What is read by descent is cut off the front of the tokens. -/
theorem within_suffix (fuel : ℕ) :
    (∀ {ts v rest}, valueWithin fuel ts = some (v, rest) → rest <:+ ts) ∧
    (∀ {ts xs rest}, itemsWithin fuel ts = some (xs, rest) → rest <:+ ts) ∧
    (∀ {ts es rest}, entriesWithin fuel ts = some (es, rest) → rest <:+ ts) := by
  induction fuel with
  | zero => simp [valueWithin, itemsWithin, entriesWithin]
  | succ fuel ih =>
    obtain ⟨ihv, ihi, ihe⟩ := ih
    refine ⟨?_, ?_, ?_⟩
    · intro ts v rest h
      unfold valueWithin at h
      split at h
      · cases h
        exact List.suffix_cons _ _
      · cases h
        exact ⟨[.openList, .closeList], rfl⟩
      · rename_i hfuel
        obtain ⟨⟨xs, rest'⟩, hxs, h⟩ := Option.bind_eq_some_iff.mp h
        cases h
        cases hfuel
        exact (ihi hxs).trans (List.suffix_cons _ _)
      · cases h
        exact ⟨[.openMap, .closeMap], rfl⟩
      · rename_i hfuel
        obtain ⟨⟨es, rest'⟩, hes, h⟩ := Option.bind_eq_some_iff.mp h
        cases h
        cases hfuel
        exact (ihe hes).trans (List.suffix_cons _ _)
      · cases h
    · intro ts xs rest h
      unfold itemsWithin at h
      obtain ⟨⟨x, ts'⟩, hx, h⟩ := Option.bind_eq_some_iff.mp h
      have hts' := ihv hx
      dsimp only at h
      split at h
      · cases h
        exact (List.suffix_cons _ _).trans hts'
      · obtain ⟨⟨xs', rest'⟩, hxs, h⟩ := Option.bind_eq_some_iff.mp h
        cases h
        exact ((ihi hxs).trans (List.suffix_cons _ _)).trans hts'
      · cases h
    · intro ts es rest h
      unfold entriesWithin at h
      split at h
      · rename_i k ts hfuel
        cases hfuel
        obtain ⟨⟨x, ts'⟩, hx, h⟩ := Option.bind_eq_some_iff.mp h
        have hts' := (ihv hx).trans ⟨[.atom (.text k), .colon], rfl⟩
        dsimp only at h
        split at h
        · cases h
          exact (List.suffix_cons _ _).trans hts'
        · obtain ⟨⟨es', rest'⟩, hes, h⟩ := Option.bind_eq_some_iff.mp h
          cases h
          exact ((ihe hes).trans (List.suffix_cons _ _)).trans hts'
        · cases h
      · cases h

/-- The items of a list are read up to the bracket that closes it. -/
theorem exists_of_itemsWithin {fuel : ℕ} {ts rest : List Token} {xs : List Value}
    (h : itemsWithin fuel ts = some (xs, rest)) : ∃ front, ts = front ++ .closeList :: rest := by
  induction fuel generalizing ts xs with
  | zero => cases h
  | succ fuel ih =>
    unfold itemsWithin at h
    obtain ⟨⟨x, ts'⟩, hx, h⟩ := Option.bind_eq_some_iff.mp h
    obtain ⟨front, hfront⟩ := (within_suffix fuel).1 hx
    dsimp only at h
    split at h
    · cases h
      exact ⟨front, hfront.symm⟩
    · obtain ⟨⟨xs', rest'⟩, hxs, h⟩ := Option.bind_eq_some_iff.mp h
      cases h
      obtain ⟨middle, rfl⟩ := ih hxs
      exact ⟨front ++ .comma :: middle, by simp [← hfront]⟩
    · cases h

/-- A list is read up to its closing bracket, unless a single token stands for it. -/
theorem exists_of_valueWithin_list {fuel : ℕ} {ts rest : List Token} {xs : List Value}
    (h : valueWithin fuel ts = some (.list xs, rest))
    (hts : ∀ t ∈ ts, t.Has fun v => v ≠ .list xs) : ∃ front, ts = front ++ .closeList :: rest := by
  unfold valueWithin at h
  split at h
  · cases h
    exact absurd rfl (hts _ List.mem_cons_self)
  · cases h
    exact ⟨[.openList], rfl⟩
  · obtain ⟨⟨ys, rest'⟩, hys, h⟩ := Option.bind_eq_some_iff.mp h
    cases h
    obtain ⟨front, rfl⟩ := exists_of_itemsWithin hys
    exact ⟨.openList :: front, rfl⟩
  · cases h
  · obtain ⟨⟨es, rest'⟩, hes, h⟩ := Option.bind_eq_some_iff.mp h
    cases h
  · cases h

theorem elementary_ne_list (xs : List Value) : Elementary (· ≠ .list xs) where
  text _ := by simp
  word := by simp [words]
  int _ _ := by simp
  double _ _ _ := by simp

/-- The last mark of a text that is not space, if there is one. -/
def lastMark? (s : String) : Option Char :=
  s.toList.reverse.find? (!isSpace ·)

/-- The text of a list ends in its closing bracket. -/
theorem lastMark?_of_decodeList {s : String} {xs : List Value} (h : decodeList s = some xs) :
    lastMark? s = some ']' := by
  have hdecode := decode_of_decodeList h
  unfold decode at hdecode
  obtain ⟨ts, hts, hdecode⟩ := Option.bind_eq_some_iff.mp hdecode
  split at hdecode
  · rename_i v hv
    cases hdecode
    have hleaves := (elementary_ne_list xs).tokensWithin hts
    obtain ⟨front, rfl⟩ := exists_of_valueWithin_list hv hleaves
    obtain ⟨before, after, hs, hafter⟩ := exists_of_tokensWithin hts
    have hnone : after.reverse.find? (!isSpace ·) = none := by simpa using hafter
    have hbracket : isSpace ']' = false := rfl
    simp [lastMark?, hs, hnone, hbracket]
  · cases hdecode

end FieldRules.Json
