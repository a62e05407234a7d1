import FieldRules.Proofs.Settings.Variables

/-! What the variables of an environment give: the texts of plain settings, and for a section the
JSON of its own variable with the variables of its keys laid over it. -/
namespace FieldRules

open Value Entries

theorem Json.hereditary_keyed : Json.Hereditary Keyed where
  text := keyed_text
  word := by simp [Json.words, Keyed]
  int := by simp [Keyed]
  double := by simp [Keyed]
  list := fun _ h => keyed_list.mpr h
  map := fun _ hn h => keyed_map.mpr ⟨hn, h⟩

namespace Settings

variable {env : Environment} {named : Entries Value} {part key : String} {found : Option Value}

/-- What the variable of a section holds, if it is there and is JSON. -/
def json? (env : Environment) (part : String) : Option Value :=
  (varText? env (variableStart ++ part)).bind Json.decode

theorem keyed_json? {v : Value} (h : json? env part = some v) : v.Keyed := by
  obtain ⟨s, -, hs⟩ := Option.bind_eq_some_iff.mp h
  exact Json.hereditary_keyed.decode hs

/-- The section that variables give, by what its own variable holds. -/
theorem sectionVariable_eq_some (h : sectionVariable (lowered env) part = some found) :
    found = match json? env part with
      | none =>
        let own := keyVariables (lowered env) part
        if own.isEmpty then none else some (.map own)
      | some .null => none
      | some (.map es) => some (.map (lay es (keyVariables (lowered env) part)))
      | some v => some v := by
  unfold sectionVariable at h
  rw [get?_lowered] at h
  unfold json?
  cases hs : varText? env (variableStart ++ part) with
  | none =>
    simp only [hs, Option.some.injEq] at h
    rw [← h]
    rfl
  | some s =>
    cases hd : Json.decode s with
    | none => simp [hs, hd] at h
    | some v =>
      rw [Option.bind_some, hd]
      cases v with
      | _ =>
        simp only [hs, hd, Option.some.injEq] at h
        rw [← h]

/-- The section that variables give is the one in its own variable with those of its keys laid over
it. -/
theorem entriesOf_sectionVariable (hmap : ∀ v, json? env part = some v → ∃ es, v = .map es)
    (h : sectionVariable (lowered env) part = some found) :
    entriesOf found = lay (entriesOf (json? env part)) (keyVariables (lowered env) part) := by
  rw [sectionVariable_eq_some h]
  cases hjson : json? env part with
  | none =>
    have hn := (keyed_map.mp (keyed_keyVariables (lowered env) part)).1
    rw [show entriesOf none = [] from rfl, lay_nil hn]
    dsimp only
    split
    · rename_i hempty
      rw [List.isEmpty_iff.mp hempty]
      rfl
    · rfl
  | some v =>
    obtain ⟨es, rfl⟩ := hmap v hjson
    rfl

theorem keyed_sectionVariable {v : Value}
    (h : sectionVariable (lowered env) part = some (some v)) : v.Keyed := by
  have hown := keyed_keyVariables (lowered env) part
  have hfound := sectionVariable_eq_some h
  cases hjson : json? env part with
  | none =>
    rw [hjson] at hfound
    dsimp only at hfound
    split at hfound
    · cases hfound
    · cases hfound
      exact hown
  | some w =>
    have hw := keyed_json? hjson
    rw [hjson] at hfound
    cases w with
    | null => cases hfound
    | map es =>
      cases hfound
      exact keyed_lay (keyed_map.mp hown).2 hw
    | _ =>
      cases hfound
      exact hw

/-- The entries whose values are there. -/
def present (es : Entries (Option Value)) : Entries Value :=
  es.filterMap fun e => e.2.map fun v => (e.1, v)

theorem keys_present_sublist (es : Entries (Option Value)) :
    (Entries.keys (present es)).Sublist (Entries.keys es) := by
  induction es with
  | nil => exact List.Sublist.slnil
  | cons e es ih =>
    obtain ⟨key, _ | v⟩ := e
    · exact ih.cons key
    · exact ih.cons_cons key

theorem mem_of_mem_present {es : Entries (Option Value)} {e : String × Value}
    (h : e ∈ present es) : (e.1, some e.2) ∈ es := by
  obtain ⟨⟨key, found⟩, hmem, hvalue⟩ := List.mem_filterMap.mp h
  obtain ⟨v, rfl, rfl⟩ := Option.map_eq_some_iff.mp hvalue
  exact hmem

theorem get?_present {es : Entries (Option Value)} (hn : (Entries.keys es).Nodup) :
    get? (present es) key = (get? es key).join := by
  induction es with
  | nil => rfl
  | cons e es ih =>
    obtain ⟨hfresh, hes⟩ := List.nodup_cons.mp hn
    have ih := ih hes
    obtain ⟨other, found⟩ := e
    by_cases hkey : other = key
    · subst hkey
      rw [get?_eq_none hfresh, Option.join_none] at ih
      cases found with
      | none => simpa [present] using ih
      | some v => simp [present]
    · cases found with
      | none => simpa [present, hkey] using ih
      | some v => simpa [present, hkey] using ih

/-- What variables give: the texts of the settings that are no sections, then the sections. -/
def layerOf (env : Environment) : Entries (Option Value) :=
  plainKeys.map (fun key => (key, (varText? env (variableStart ++ key)).map .text)) ++
    sections.map fun s => (s.1, (sectionVariable (lowered env) s.1).join.map (respell s.2))

theorem nodup_keys_layerOf (env : Environment) : (Entries.keys (layerOf env)).Nodup := by
  have hkeys : Entries.keys (layerOf env) = plainKeys ++ sections.map (·.1) := by
    simp [layerOf, Entries.keys, Function.comp_def]
  rw [hkeys]
  decide

theorem keyed_respell {v : Value} (h : v.Keyed) (keys : List String) : (respell keys v).Keyed := by
  cases v with
  | map es =>
    refine keyed_ofPairs fun e he => ?_
    obtain ⟨d, hd, rfl⟩ := List.mem_map.mp he
    exact (keyed_map.mp h).2 d hd
  | _ => exact h

theorem keyed_present_layerOf (env : Environment) : Keyed (.map (present (layerOf env))) := by
  refine keyed_map.mpr ⟨(nodup_keys_layerOf env).sublist (keys_present_sublist _), fun e he => ?_⟩
  rcases List.mem_append.mp (mem_of_mem_present he) with he | he
  · obtain ⟨key, -, hkey⟩ := List.mem_map.mp he
    obtain ⟨s, -, hs⟩ := Option.map_eq_some_iff.mp (Prod.mk.inj hkey).2
    rw [← hs]
    exact keyed_text s
  · obtain ⟨part, -, hpart⟩ := List.mem_map.mp he
    obtain ⟨v, hv, hrespell⟩ := Option.map_eq_some_iff.mp (Prod.mk.inj hpart).2
    rw [← hrespell]
    exact keyed_respell (keyed_sectionVariable (Option.join_eq_some_iff.mp hv)) part.2

theorem ofVariables_eq_some (h : ofVariables env = some named) :
    named = present (layerOf env) ∧
      ∀ s ∈ sections, ∃ found, sectionVariable (lowered env) s.1 = some found := by
  simp only [ofVariables, sectionVariables, sections, List.mapM_cons, List.mapM_nil,
    Option.bind_eq_bind, Option.bind_eq_some_iff, Option.pure_def, Option.some.injEq] at h
  obtain ⟨-, ⟨-, ⟨-, ⟨v, hv, rfl⟩, -, ⟨-, ⟨w, hw, rfl⟩, -, rfl, rfl⟩, rfl⟩, rfl⟩, rfl⟩ := h
  constructor
  · rw [layerOf, present, List.filterMap_append, List.filterMap_map, List.filterMap_map]
    simp [sections, hv, hw, ← get?_lowered, Option.map_eq_bind, Option.bind_assoc,
      List.filterMap_cons]
  · simp [sections, hv, hw]

theorem keyed_ofVariables (h : ofVariables env = some named) : Keyed (.map named) := by
  rw [(ofVariables_eq_some h).1]
  exact keyed_present_layerOf env

/-- A setting that is no section has the text of its variable. -/
theorem get?_ofVariables_plain (h : ofVariables env = some named) (hkey : key ∈ plainKeys) :
    get? named key = (varText? env (variableStart ++ key)).map .text := by
  have hmem : (key, (varText? env (variableStart ++ key)).map .text) ∈ layerOf env := by
    refine List.mem_append_left _ (List.mem_map.mpr ⟨key, hkey, rfl⟩)
  rw [(ofVariables_eq_some h).1, get?_present (nodup_keys_layerOf env),
    get?_eq_some (nodup_keys_layerOf env) hmem, Option.join_some]

theorem get?_ofVariables_section (h : ofVariables env = some named) {keys : List String}
    (hpart : (part, keys) ∈ sections) :
    ∃ found, sectionVariable (lowered env) part = some found ∧
      get? named part = found.map (respell keys) := by
  obtain ⟨hnamed, hfound⟩ := ofVariables_eq_some h
  obtain ⟨found, hfound⟩ := hfound _ hpart
  have hmem : (part, found.map (respell keys)) ∈ layerOf env := by
    refine List.mem_append_right _ (List.mem_map.mpr ⟨(part, keys), hpart, ?_⟩)
    rw [hfound, Option.join_some]
  refine ⟨found, hfound, ?_⟩
  rw [hnamed, get?_present (nodup_keys_layerOf env), get?_eq_some (nodup_keys_layerOf env) hmem,
    Option.join_some]

end Settings

end FieldRules
