import FieldRules.Proofs.Entries
import FieldRules.Proofs.Value.Agreement
import FieldRules.Settings.Layers
import FieldRules.Value.Nest

/-! Mappings laid over each other, and the values at the end of paths of keys. -/
namespace FieldRules.Settings

open Value Entries

variable {lower upper es : Entries Value} {key : String} {path : List String} {v : Value}

theorem keyed_nil : Keyed (.map []) := by
  simp [Keyed, KeyedEntries, Entries.keys]

theorem keyed_insert (h : Keyed (.map es)) (hv : v.Keyed) : Keyed (.map (insert es key v)) := by
  obtain ⟨hn, hes⟩ := keyed_map.mp h
  exact keyed_map.mpr ⟨nodup_keys_insert hn, forall_insert hes hv⟩

theorem keyed_ofPairs {pairs : List (String × Value)} (h : ∀ e ∈ pairs, e.2.Keyed) :
    Keyed (.map (ofPairs pairs)) :=
  keyed_map.mpr ⟨nodup_keys_ofPairs pairs, forall_overlay (by simp) h⟩

theorem keyed_entriesOf {below : Option Value} (h : ∀ v, below = some v → v.Keyed) :
    Keyed (.map (entriesOf below)) := by
  unfold entriesOf
  split
  · exact h _ rfl
  · exact keyed_nil

theorem layValue_of_not_map (h : ∀ fs, v ≠ .map fs) (below : Option Value) :
    layValue below v = v := by
  cases v with
  | map fs => exact absurd rfl (h fs)
  | _ => simp [layValue]

theorem layValue_none (v : Value) : layValue none v = v := by
  cases v with
  | _ => simp [layValue]

theorem lay_append (hn : (Entries.keys (lower ++ es)).Nodup) : lay lower es = lower ++ es := by
  induction es generalizing lower with
  | nil => simp [lay]
  | cons e es ih =>
    obtain ⟨k, v⟩ := e
    have hfresh : k ∉ Entries.keys lower := by
      intro hmem
      rw [Entries.keys, List.map_append, List.nodup_append] at hn
      exact hn.2.2 k hmem k List.mem_cons_self rfl
    rw [lay, get?_eq_none hfresh, layValue_none, insert_of_not_mem hfresh, ih (by simpa using hn),
      List.append_assoc, List.singleton_append]

theorem lay_nil (hn : (Entries.keys es).Nodup) : lay [] es = es :=
  lay_append hn

/-- A mapping is laid over the entries of whatever is below. -/
theorem layValue_map (hn : (Entries.keys es).Nodup) (below : Option Value) :
    layValue below (.map es) = .map (lay (entriesOf below) es) := by
  cases below with
  | none => rw [layValue_none, entriesOf, lay_nil hn]; simp
  | some w =>
    cases w with
    | map fs => rw [layValue, entriesOf]
    | _ => rw [layValue, entriesOf, lay_nil hn] <;> simp

theorem get?_lay (hn : (Entries.keys upper).Nodup) (lower : Entries Value) (key : String) :
    get? (lay lower upper) key =
      ((get? upper key).map (layValue (get? lower key))).or (get? lower key) := by
  induction upper generalizing lower with
  | nil => simp [lay]
  | cons e upper ih =>
    obtain ⟨k, v⟩ := e
    obtain ⟨hfresh, hupper⟩ := List.nodup_cons.mp hn
    rw [lay, ih hupper, get?_insert, get?_cons]
    by_cases hkey : k = key
    · subst hkey
      rw [get?_eq_none hfresh, if_pos rfl, if_pos rfl]
      rfl
    · rw [if_neg hkey, if_neg hkey]

theorem keys_lay (hn : (Entries.keys upper).Nodup) (lower : Entries Value) :
    Entries.keys (lay lower upper) =
      Entries.keys lower ++ (Entries.keys upper).filter (· ∉ Entries.keys lower) := by
  induction upper generalizing lower with
  | nil => simp [lay, Entries.keys]
  | cons e upper ih =>
    obtain ⟨k, v⟩ := e
    obtain ⟨hfresh, hupper⟩ := List.nodup_cons.mp hn
    rw [lay, ih hupper, keys_insert, keys_cons]
    by_cases hk : k ∈ Entries.keys lower
    · simp [hk]
    · have hrest : (Entries.keys upper).filter (· ∉ Entries.keys lower ++ [k]) =
          (Entries.keys upper).filter (· ∉ Entries.keys lower) := by
        refine List.filter_congr fun name hname => ?_
        have hne : name ≠ k := fun heq => hfresh (heq ▸ hname)
        simp [hne]
      rw [if_neg hk, hrest, List.filter_cons_of_pos (by simpa using hk), List.append_assoc,
        List.singleton_append]

mutual

theorem keyed_layValue : ∀ {v : Value}, v.Keyed → ∀ {below : Option Value},
    (∀ w, below = some w → w.Keyed) → (layValue below v).Keyed
  | .map es, hv, below, hbelow => by
    rw [layValue_map (keyed_map.mp hv).1]
    exact keyed_lay (keyed_map.mp hv).2 (keyed_entriesOf hbelow)
  | .null, hv, _, _ | .bool _, hv, _, _ | .int _, hv, _, _ | .double _, hv, _, _
  | .text _, hv, _, _ | .list _, hv, _, _ => by
    rw [layValue_of_not_map (by simp)]
    exact hv

theorem keyed_lay : ∀ {es lower : Entries Value}, (∀ e ∈ es, e.2.Keyed) → Keyed (.map lower) →
    Keyed (.map (lay lower es))
  | [], _, _, hlower => by
    rw [lay]
    exact hlower
  | (k, v) :: es, lower, hes, hlower => by
    obtain ⟨hv, hes⟩ := List.forall_mem_cons.mp hes
    rw [lay]
    refine keyed_lay hes (keyed_insert hlower (keyed_layValue hv fun w hw => ?_))
    exact (keyed_map.mp hlower).2 (k, w) (mem_of_get? hw)

end

/-- The value at the end of a path of keys, through mappings. -/
def valueAt? : List String → Entries Value → Option Value
  | [], _ => none
  | [key], es => get? es key
  | key :: next :: path, es => valueAt? (next :: path) (entriesOf (get? es key))

/-- As far as there is anything on a path of keys, there are mappings on the way and none at its
end. -/
def Clear : List String → Entries Value → Prop
  | [], _ => True
  | [key], es => ∀ fs, get? es key ≠ some (.map fs)
  | key :: next :: path, es =>
    ∀ v, get? es key = some v → ∃ fs, v = .map fs ∧ Clear (next :: path) fs

theorem valueAt?_nil (path : List String) : valueAt? path [] = none := by
  induction path with
  | nil => rfl
  | cons key path ih =>
    cases path with
    | nil => rfl
    | cons next path => exact ih

theorem valueAt?_congr {es fs : Entries Value} (h : get? es key = get? fs key)
    (path : List String) : valueAt? (key :: path) es = valueAt? (key :: path) fs := by
  cases path with
  | nil => exact h
  | cons next path => rw [valueAt?, valueAt?, h]

theorem Clear.not_map (h : Clear path es) (fs : Entries Value) :
    valueAt? path es ≠ some (.map fs) := by
  induction path generalizing es with
  | nil => simp [valueAt?]
  | cons key path ih =>
    cases path with
    | nil => exact h fs
    | cons next path =>
      rw [valueAt?]
      cases hkey : get? es key with
      | none => simp [entriesOf, valueAt?_nil]
      | some v =>
        obtain ⟨gs, rfl, hgs⟩ := h v hkey
        exact ih hgs

end FieldRules.Settings
