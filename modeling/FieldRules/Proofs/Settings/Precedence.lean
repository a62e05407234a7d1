import FieldRules.Proofs.Settings.Flag
import FieldRules.Proofs.Settings.Sources

/-! Each truth value among the settings comes from the first source that has its very key. -/
namespace FieldRules.Settings

open Entries Record

/-- What the variables of an environment have for a flag. In a section the variable of the key comes
before that of the section, unless this one has the key respelt. -/
def Flag.fromVariables (f : Flag) (env : Environment) : List (Option Value) :=
  match f.part? with
  | none => [(varText? env (variableStart ++ f.key)).map .text]
  | some part =>
    let own := (varText? env (keyStart part ++ f.key)).map .text
    let es := Value.entriesOf (json? env part)
    if respelt f.key es then [lastSpelt? f.key es, own] else [own, lastSpelt? f.key es]

/-- What the sources of settings have for a flag, the highest first: what is given outright, the
variables of the environment, the file, and the value when nothing is set. -/
def Flag.sources (f : Flag) (overrides : Entries Value) (env : Environment)
    (table : Entries Value) : List (Option Value) :=
  [valueAt? f.path overrides] ++ f.fromVariables env ++
    [valueAt? f.path table, some (.bool (f.of {}))]

variable {lib : Library} {src : Sources} {env : Environment} {named overrides table : Entries Value}
  {f : Flag}

theorem findSome?_id_cons {α : Type} (a : Option α) (found : List (Option α)) :
    (a :: found).findSome? id = a.or (found.findSome? id) := by
  cases a with
  | none => rfl
  | some v => rfl

/-- The variables of an environment give for a flag what the first of them has that is there. -/
theorem valueAt?_ofVariables (hsrc : src.Lawful) (h : src.ofVariables env = some named)
    (hmap : ∀ part, f.part? = some part → ∀ v, json? env part = some v → ∃ es, v = .map es)
    (hplain : ∀ fs, valueAt? f.path named ≠ some (.map fs)) :
    valueAt? f.path named = (f.fromVariables env).findSome? id := by
  unfold Flag.path at hplain ⊢
  unfold Flag.fromVariables
  cases hpart : f.part? with
  | none =>
    rw [valueAt?, hsrc.get?_plain h _ (Flag.key_mem_plainKeys hpart)]
    simp
  | some part =>
    obtain ⟨keys, hsection, hkey⟩ := Flag.exists_section hpart
    simp only [hpart, valueAt?] at hplain ⊢
    rw [hsrc.get?_section_key h hsection hkey f.not_infix_key (hmap part hpart) hplain]
    split
    · rename_i hrespelt
      obtain ⟨v, hv⟩ := Option.isSome_iff_exists.mp (isSome_lastSpelt?_of_respelt hrespelt)
      rw [hv, findSome?_id_cons, Option.some_or]
    · simp only [findSome?_id_cons, List.findSome?_nil, Option.or_none]

theorem findSome?_sources (f : Flag) (overrides : Entries Value) (env : Environment)
    (table : Entries Value) : (f.sources overrides env table).findSome? id =
      some ((((valueAt? f.path overrides).or ((f.fromVariables env).findSome? id)).or
        (valueAt? f.path table)).getD (.bool (f.of {}))) := by
  simp only [Flag.sources, List.findSome?_append, findSome?_id_cons, List.findSome?_nil,
    Option.or_none]
  rw [← Option.or_assoc, Option.or_some]

/-- The file of settings that is read. -/
def fileOf? (t : FileTree) (env : Environment) (here : Location) (start : Option Location)
    (configPath : Option FilePath) : Option FilePath :=
  match configPath with
  | some p => if (t.read? here p).isSome then some p else none
  | none => discover? t env here start

theorem loadFrom_eq_ok {t : FileTree} {here : Location} {path : Option FilePath} {s : Settings}
    (h : loadFrom lib src t env here path overrides = .ok s) :
    ∃ table named, tableOf t here path = .ok table ∧ src.ofVariables env = some named ∧
      read lib (.map (src.lay table (src.lay named (given t path overrides)))) = .accepted s := by
  unfold loadFrom at h
  cases htable : tableOf t here path with
  | error e => simp [htable, bind, Except.bind] at h
  | ok table =>
    cases hnamed : src.ofVariables env with
    | none => simp [htable, hnamed, bind, Except.bind] at h
    | some named =>
      cases hread :
          read lib (.map (src.lay table (src.lay named (given t path overrides)))) with
      | refused issues => simp [htable, hnamed, hread, bind, Except.bind] at h
      | accepted s' =>
        simp only [htable, hnamed, hread, bind, Except.bind, Except.ok.injEq] at h
        subst h
        exact ⟨table, named, rfl, rfl, hread⟩

theorem keyed_given (hk : Value.Keyed (.map overrides)) (t : FileTree) (path : Option FilePath) :
    Value.Keyed (.map (given t path overrides)) := by
  have hpath : (Value.ofOption (path.map t.pathText)).Keyed := by
    cases path with
    | none => simp [Value.ofOption, Value.Keyed]
    | some p => simp [Value.ofOption, Value.Keyed]
  have hall : ∀ e ∈ ("config_path", Value.ofOption (path.map t.pathText)) :: overrides,
      e.2.Keyed :=
    List.forall_mem_cons.mpr ⟨hpath, (Value.keyed_map.mp hk).2⟩
  exact keyed_ofPairs hall

theorem Flag.valueAt?_given (hk : Value.Keyed (.map overrides)) (f : Flag) (t : FileTree)
    (path : Option FilePath) : valueAt? f.path (given t path overrides) =
      valueAt? f.path overrides := by
  have hget : ∀ key ≠ "config_path", get? (given t path overrides) key = get? overrides key := by
    intro key hkey
    rw [given, get?_overlay _ (Value.keyed_map.mp hk).1, get?_cons, if_neg hkey.symm, get?_nil,
      Option.or_none]
  cases f with
  | _ => exact valueAt?_congr (hget _ (by decide)) _

/-- The settings that are loaded have each truth value from the first source that has its very key,
whatever is below it and whatever the sources have for other keys. -/
theorem load_flag (hlib : lib.Lawful) (hsrc : src.Lawful) {t : FileTree} {here : Location}
    {start : Option Location} {configPath : Option FilePath} {s : Settings}
    (h : load t env here start configPath overrides lib src = .ok s)
    (hk : Value.Keyed (.map overrides))
    (hmap : ∀ part, f.part? = some part → ∀ v, json? env part = some v → ∃ es, v = .map es) :
    ∃ table v, tableOf t here (fileOf? t env here start configPath) = .ok table ∧
      (f.sources overrides env table).findSome? id = some v ∧ lib.bool v = .accepted (f.of s) := by
  change loadFrom lib src t env here (fileOf? t env here start configPath) overrides = .ok s at h
  obtain ⟨table, named, htable, hnamed, hread⟩ := loadFrom_eq_ok h
  have hgiven := keyed_given hk t (fileOf? t env here start configPath)
  obtain ⟨hclear, hvalue⟩ := read_flag hlib hread f
  have hupper := hsrc.keyed_lay (hsrc.keyed_ofVariables hnamed) hgiven
  have htotal := hsrc.valueAt?_lay hclear hupper
  have hclear := hsrc.clear_of_lay hclear hupper
  have hover := hsrc.valueAt?_lay hclear hgiven
  rw [f.valueAt?_given hk] at hover
  refine ⟨table, _, htable, findSome?_sources f overrides env table, ?_⟩
  rw [htotal, hover] at hvalue
  cases hoverride : valueAt? f.path overrides with
  | some v => simpa [hoverride] using hvalue
  | none =>
    have hplain : ∀ fs, valueAt? f.path named ≠ some (.map fs) := by
      intro fs hfs
      rw [hoverride, hfs] at hover
      exact hclear.not_map fs hover
    rwa [hoverride, valueAt?_ofVariables hsrc hnamed hmap hplain] at hvalue

/-- A file with a word that is no truth value under a key, and with another key of the section. -/
def haven : FileTree where
  root := "haven"
  files := [(["fieldrules.toml"],
    "verbose = true\n[validation]\nsuggest_merges = 'maybe'\nfilter_contrapositives = false\n")]

/-- Variables of the section, where the one of the key is spelt in small letters. -/
def breezes : Environment := [
  ("FIELDRULES_VALIDATION", "\x7b\"Suggest_Merges\": 7\x7d"),
  ("fieldrules_validation__suggest_merges", "No")]

theorem load_breezes :
    (∃ s, load haven breezes [] (some []) none [("validation", .map [])] = .ok s ∧
      s.checks.suggestMerges = false ∧ s.checks.filterContrapositives = false) ∧
    ∃ table v, tableOf haven [] (fileOf? haven breezes [] (some []) none) = .ok table ∧
      (Flag.suggestMerges.sources [("validation", .map [])] breezes table).findSome? id = some v ∧
      Library.lax.bool v = .accepted false := by
  have hload : load haven breezes [] (some []) none [("validation", .map [])] =
      .ok ⟨some "haven/fieldrules.toml", true, false, ⟨false, false⟩, {}⟩ := by
    decide +kernel
  refine ⟨⟨_, hload, rfl, rfl⟩, load_flag Library.lawful_lax Sources.lawful_usual hload ?_ ?_⟩
  · simp [Value.Keyed, Value.KeyedEntries, Entries.keys]
  · intro part hpart v hv
    have hjson : json? breezes "validation" = some (.map [("Suggest_Merges", .int 7)]) := by
      decide +kernel
    cases hpart
    rw [hjson] at hv
    exact ⟨_, (Option.some.inj hv).symm⟩

/-- Variables that have a key of a section in one of its own, and in the JSON of the section once as
it is spelt and once in capitals. -/
def echoes : Environment := [
  ("FIELDRULES_VALIDATION", "\x7b\"suggest_merges\": true, \"SUGGEST_MERGES\": false\x7d"),
  ("FIELDRULES_VALIDATION__SUGGEST_MERGES", "true")]

/-- The variable of a key does not come before a spelling in capitals that follows the key. -/
theorem load_echoes : Library.lax.Lawful ∧ Sources.usual.Lawful ∧
    varText? echoes "fieldrules_validation__suggest_merges" = some "true" ∧
    Library.lax.bool (.text "true") = .accepted true ∧
    (∃ es, json? echoes "validation" = some (.map es)) ∧
    ∃ s, load ⟨"root", [], []⟩ echoes [] none none [] = .ok s ∧ s.checks.suggestMerges = false := by
  refine ⟨Library.lawful_lax, Sources.lawful_usual, by decide +kernel, by rfl,
    ⟨[("suggest_merges", .bool true), ("SUGGEST_MERGES", .bool false)], by decide +kernel⟩,
    ⟨none, false, false, ⟨true, false⟩, {}⟩, ?_, rfl⟩
  decide +kernel

end FieldRules.Settings
