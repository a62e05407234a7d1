import FieldRules.Proofs.Settings.Spelling
import FieldRules.Proofs.Text.Case
import FieldRules.Proofs.Text.Cut
import FieldRules.Proofs.Value.Decoded

/-! The variables of an environment: those of the keys of a section make up a mapping, in which the
text of a variable stands under its key. -/
namespace FieldRules.Settings

open Value Entries

variable {vars : Entries String} {es : Entries Value} {part key : String} {path : List String}

/-- The value of a variable whose name is taken in any case. -/
def varText? (env : Environment) (name : String) : Option String :=
  lastSpelt? name (ofPairs env)

theorem get?_lowered (env : Environment) (name : String) :
    get? (lowered env) name = varText? env name :=
  get?_ofPairs_map (fun _ => Iff.rfl) (ofPairs env)

theorem isLower_of_mem_lowered {env : Environment} {name : String} {c : Char}
    (h : name ∈ Entries.keys (lowered env)) (hc : c ∈ name.toList) : Text.IsLower c := by
  have hname := mem_keys_ofPairs h
  rw [Entries.keys, List.map_map, List.mem_map] at hname
  obtain ⟨e, -, rfl⟩ := hname
  exact Text.isLower_of_mem_lower hc

/-- How the names of the variables of the keys of a section start. -/
def keyStart (part : String) : String :=
  variableStart ++ part ++ sectionMark

/-- The path of keys in the name of a variable behind its start. -/
def keyPath (part name : String) : List String :=
  Text.split sectionMark (String.ofList (name.toList.drop (keyStart part).length))

theorem keyPath_eq_singleton_iff {name : String}
    (hname : Text.startsWith (keyStart part) name = true)
    (hkey : ¬ sectionMark.toList <:+: key.toList) :
    keyPath part name = [key] ↔ name = keyStart part ++ key := by
  obtain ⟨rest, hrest⟩ := List.isPrefixOf_iff_prefix.mp hname
  have hdrop : name.toList.drop (keyStart part).length = rest := by
    rw [← hrest, ← String.length_toList, List.drop_left]
  rw [keyPath, hdrop, Text.split_eq_singleton_iff (by decide), and_iff_left hkey,
    ← String.toList_inj, ← String.toList_inj, String.toList_ofList, String.toList_append, ← hrest,
    List.append_cancel_left_eq]

/-- A property that every text under a path keeps holds of the keys of a section. -/
theorem keyVariables_induction {P : Entries Value → Prop} (hnil : P [])
    (hput : ∀ es, ∀ e ∈ vars, P es → P (putText (keyPath part e.1) e.2 es)) :
    P (keyVariables vars part) := by
  unfold keyVariables
  refine List.foldlRecOn vars _ hnil fun es hes e he => ?_
  dsimp only
  split
  · exact hput es e he hes
  · exact hes

theorem keyed_putText (h : Keyed (.map es)) (path : List String) (s : String) :
    Keyed (.map (putText path s es)) := by
  induction path generalizing es with
  | nil => exact h
  | cons key path ih =>
    cases path with
    | nil => exact keyed_insert h (keyed_text s)
    | cons next path =>
      rw [putText]
      · split
        · exact keyed_insert h (ih keyed_nil)
        · rename_i inner hinner
          exact keyed_insert h (ih ((keyed_map.mp h).2 _ (mem_of_get? hinner)))
        · exact h
      · simp

theorem keyed_keyVariables (vars : Entries String) (part : String) :
    Keyed (.map (keyVariables vars part)) :=
  keyVariables_induction (P := fun es => Keyed (.map es)) keyed_nil fun _ e _ hes =>
    keyed_putText hes (keyPath part e.1) e.2

theorem putText_cons (key : String) (path : List String) (s : String) (es : Entries Value) :
    putText (key :: path) s es = es ∨
      ∃ v, putText (key :: path) s es = Entries.insert es key v := by
  cases path with
  | nil => exact .inr ⟨_, rfl⟩
  | cons next path =>
    rw [putText]
    · split
      · exact .inr ⟨_, rfl⟩
      · exact .inr ⟨_, rfl⟩
      · exact .inl rfl
    · simp

theorem mem_keys_putText {k s : String} (h : k ∈ Entries.keys (putText path s es)) :
    k ∈ Entries.keys es ∨ k ∈ path := by
  cases path with
  | nil => exact .inl h
  | cons key path =>
    rcases putText_cons key path s es with hput | ⟨v, hput⟩
    · exact .inl (hput ▸ h)
    · rw [hput] at h
      rcases mem_keys_insert.mp h with rfl | h
      · exact .inr List.mem_cons_self
      · exact .inl h

theorem lower_of_mem_keyVariables {env : Environment} {name : String}
    (h : name ∈ Entries.keys (keyVariables (lowered env) part)) : Text.lower name = name := by
  have hall : ∀ name ∈ Entries.keys (keyVariables (lowered env) part), ∀ c ∈ name.toList,
      Text.IsLower c := by
    refine keyVariables_induction (P := fun es => ∀ name ∈ Entries.keys es, ∀ c ∈ name.toList,
      Text.IsLower c) (by simp [Entries.keys]) fun es e he hes name hname c hc => ?_
    rcases mem_keys_putText hname with hname | hname
    · exact hes name hname c hc
    · have hrest := Text.mem_of_mem_split hname hc
      rw [String.toList_ofList] at hrest
      exact isLower_of_mem_lowered (List.mem_map_of_mem he) (List.mem_of_mem_drop hrest)
  exact Text.lower_eq (hall name h)

theorem get?_putText_of_ne {k : String} (h : k ≠ key) (path : List String) (s : String)
    (es : Entries Value) : get? (putText (k :: path) s es) key = get? es key := by
  rcases putText_cons k path s es with hput | ⟨v, hput⟩
  · rw [hput]
  · rw [hput, get?_insert, if_neg h]

/-- What stands under a key of a section: the text of the variable of the key, or else at most a
mapping. -/
def Stands (key : String) (es : Entries Value) : Option String → Prop
  | some s => get? es key = some (.text s)
  | none => ∀ v, get? es key = some v → ∃ fs, v = .map fs

theorem stands_putText (key s : String) (es : Entries Value) :
    Stands key (putText [key] s es) (some s) := by
  rw [Stands, putText, get?_insert, if_pos rfl]

theorem Stands.putText {own : Option String} (h : Stands key es own) (hpath : path ≠ [key])
    (s : String) : Stands key (putText path s es) own := by
  cases path with
  | nil => exact h
  | cons k path =>
    by_cases hk : k = key
    · subst hk
      cases path with
      | nil => exact absurd rfl hpath
      | cons next path =>
        rw [Settings.putText]
        · cases own with
          | some t =>
            -- the text stands in the way of a longer path
            rw [Stands] at h
            rw [h]
            exact h
          | none =>
            have hmap : ∀ fs, Stands k (Entries.insert es k (.map fs)) none := by
              intro fs v hv
              rw [get?_insert, if_pos rfl] at hv
              exact ⟨fs, (Option.some.inj hv).symm⟩
            split
            · exact hmap _
            · exact hmap _
            · exact h
        · simp
    · have hget := get?_putText_of_ne hk path s es
      cases own with
      | none => rwa [Stands, hget]
      | some t => rwa [Stands, hget]

theorem stands_keyVariables (hn : (Entries.keys vars).Nodup)
    (hkey : ¬ sectionMark.toList <:+: key.toList) (part : String) :
    Stands key (keyVariables vars part) (get? vars (keyStart part ++ key)) := by
  suffices hfold : ∀ es own, Stands key es own →
      Stands key
        (vars.foldl (fun es e =>
          if Text.startsWith (keyStart part) e.1 then putText (keyPath part e.1) e.2 es else es) es)
        ((get? vars (keyStart part ++ key)).or own) by
    have hall := hfold [] none (by simp [Stands])
    rw [Option.or_none] at hall
    exact hall
  induction vars with
  | nil => exact fun es own h => h
  | cons e vars ih =>
    intro es own h
    obtain ⟨hfresh, hvars⟩ := List.nodup_cons.mp hn
    rw [List.foldl_cons, get?_cons]
    by_cases hname : e.1 = keyStart part ++ key
    · have hstart : Text.startsWith (keyStart part) e.1 = true := by
        rw [hname]
        exact Text.startsWith_append (keyStart part) key
      have hafter := ih hvars _ _ (stands_putText key e.2 es)
      rw [get?_eq_none (hname ▸ hfresh), Option.none_or] at hafter
      rw [if_pos hname, Option.some_or, if_pos hstart,
        (keyPath_eq_singleton_iff hstart hkey).mpr hname]
      exact hafter
    · rw [if_neg hname]
      refine ih hvars _ _ ?_
      split
      · rename_i hstart
        exact h.putText (fun hpath => hname ((keyPath_eq_singleton_iff hstart hkey).mp hpath)) e.2
      · exact h

end FieldRules.Settings
