import FieldRules.Proofs.Settings.Sections
import FieldRules.Settings.Sources

/-! What is relied on in a library that gathers settings, and what follows from it: an upper source
decides at the end of a path of keys, unless it has nothing there; and of a key in a section, its own
variable comes before the JSON of the section, unless that has the key respelt. -/
namespace FieldRules.Settings

open Value Entries

/-- What the variables of the keys of a section make up: a mapping under names in lower case, in
which the text of a variable stands under its key. -/
structure OwnKeys (env : Environment) (part : String) (own : Entries Value) : Prop where
  keyed : Keyed (.map own)
  lower_eq : ∀ name ∈ Entries.keys own, Text.lower name = name
  stands : ∀ key, ¬ sectionMark.toList <:+: key.toList →
    Stands key own (varText? env (keyStart part ++ key))

/-- What is relied on in a library that gathers settings. Where an upper source and a lower one both
have a mapping under a key, these are laid over each other in turn, and otherwise the upper one
decides; new keys come last. The variable of a setting that is no section gives its text. A section
is the JSON of its own variable, with the variables of its keys laid over it and its names taken in
any case. -/
structure Sources.Lawful (src : Sources) : Prop where
  get?_absent : ∀ {lower upper : Entries Value} {key : String}, Keyed (.map upper) →
    get? upper key = none → get? (src.lay lower upper) key = get? lower key
  get?_maps : ∀ {lower upper fs es : Entries Value} {key : String}, Keyed (.map upper) →
    get? lower key = some (.map fs) → get? upper key = some (.map es) →
      get? (src.lay lower upper) key = some (.map (src.lay fs es))
  get?_value : ∀ {lower upper : Entries Value} {key : String} {v : Value}, Keyed (.map upper) →
    get? upper key = some v →
      (∀ fs es, v = .map es → get? lower key ≠ some (.map fs)) →
        get? (src.lay lower upper) key = some v
  keys_lay : ∀ {lower upper : Entries Value}, Keyed (.map upper) →
    Entries.keys (src.lay lower upper) =
      Entries.keys lower ++ (Entries.keys upper).filter (· ∉ Entries.keys lower)
  keyed_lay : ∀ {lower upper : Entries Value}, Keyed (.map lower) → Keyed (.map upper) →
    Keyed (.map (src.lay lower upper))
  keyed_ofVariables : ∀ {env : Environment} {named : Entries Value},
    src.ofVariables env = some named → Keyed (.map named)
  get?_plain : ∀ {env : Environment} {named : Entries Value}, src.ofVariables env = some named →
    ∀ key ∈ plainKeys, get? named key = (varText? env (variableStart ++ key)).map .text
  get?_section : ∀ {env : Environment} {named : Entries Value}, src.ofVariables env = some named →
    ∀ {part : String} {keys : List String}, (part, keys) ∈ sections →
      (∀ v, json? env part = some v → ∃ es, v = .map es) → ∃ own, OwnKeys env part own ∧
        ∀ key ∈ keys, get? (entriesOf (get? named part)) key =
          lastSpelt? key (src.lay (entriesOf (json? env part)) own)

theorem lower_of_mem_sections {part key : String} {keys : List String}
    (hsection : (part, keys) ∈ sections) (hkey : key ∈ keys) : Text.lower key = key := by
  have hall : ∀ s ∈ sections, ∀ key ∈ s.2, Text.lower key = key := by decide +kernel
  exact hall _ hsection key hkey

theorem ownKeys_keyVariables (env : Environment) (part : String) :
    OwnKeys env part (keyVariables (lowered env) part) where
  keyed := keyed_keyVariables (lowered env) part
  lower_eq _ h := lower_of_mem_keyVariables h
  stands key hkey := by
    rw [← get?_lowered]
    exact stands_keyVariables (nodup_keys_ofPairs _) hkey part

theorem Sources.lawful_usual : usual.Lawful where
  get?_absent := by
    intro lower upper key hk h
    simp [usual, get?_lay (keyed_map.mp hk).1, h]
  get?_maps := by
    intro lower upper fs es key hk hlower hupper
    simp [usual, get?_lay (keyed_map.mp hk).1, hlower, hupper, layValue]
  get?_value := by
    intro lower upper key v hk hupper hv
    have hlaid : layValue (get? lower key) v = v := by
      cases v with
      | map es =>
        unfold layValue
        split
        · rename_i fs hfs
          exact absurd hfs (hv fs es rfl)
        · rfl
      | _ => exact layValue_of_not_map (by simp) _
    simp [usual, get?_lay (keyed_map.mp hk).1, hupper, hlaid]
  keys_lay hk := Settings.keys_lay (keyed_map.mp hk).1 _
  keyed_lay hlower hupper := Settings.keyed_lay (keyed_map.mp hupper).2 hlower
  keyed_ofVariables := Settings.keyed_ofVariables
  get?_plain h _ hkey := get?_ofVariables_plain h hkey
  get?_section := by
    intro env named h part keys hsection hmap
    refine ⟨_, ownKeys_keyVariables env part, fun key hkey => ?_⟩
    obtain ⟨found, hfound, hget⟩ := get?_ofVariables_section h hsection
    have hlower : Text.lower key = key := lower_of_mem_sections hsection hkey
    rw [hget, get?_respell hkey hlower, entriesOf_sectionVariable hmap hfound]
    rfl

namespace Sources.Lawful

variable {src : Sources} {lower upper es own : Entries Value} {key part : String}
  {path : List String} {env : Environment}

section
variable (hsrc : src.Lawful)
include hsrc

/-- A mapping of an upper source is laid over the one below it, and stays as it is where there is
none. -/
theorem get?_map_cases (hk : Keyed (.map upper)) (h : get? upper key = some (.map es))
    (lower : Entries Value) :
    (∃ fs, get? lower key = some (.map fs) ∧
      get? (src.lay lower upper) key = some (.map (src.lay fs es))) ∨
    entriesOf (get? lower key) = [] ∧ get? (src.lay lower upper) key = some (.map es) := by
  by_cases hlower : ∃ fs, get? lower key = some (.map fs)
  · obtain ⟨fs, hfs⟩ := hlower
    exact .inl ⟨fs, hfs, hsrc.get?_maps hk hfs h⟩
  · refine .inr ⟨?_, hsrc.get?_value hk h fun fs _ _ hfs => hlower ⟨fs, hfs⟩⟩
    unfold entriesOf
    split
    · rename_i fs hfs
      exact absurd ⟨fs, hfs⟩ hlower
    · rfl

/-- Under a key where an upper source has a mapping, there is one in the end. -/
theorem exists_map (hk : Keyed (.map upper)) (h : get? upper key = some (.map es))
    (lower : Entries Value) : ∃ gs, get? (src.lay lower upper) key = some (.map gs) := by
  rcases hsrc.get?_map_cases hk h lower with ⟨fs, -, hlaid⟩ | ⟨-, hlaid⟩
  · exact ⟨_, hlaid⟩
  · exact ⟨es, hlaid⟩

theorem get?_plain_value (hk : Keyed (.map upper)) {v : Value} (h : get? upper key = some v)
    (hplain : ∀ es, v ≠ .map es) : get? (src.lay lower upper) key = some v :=
  hsrc.get?_value hk h fun _ es hes => absurd hes (hplain es)

theorem clear_of_lay (h : Clear path (src.lay lower upper)) (hk : Keyed (.map upper)) :
    Clear path upper := by
  induction path generalizing lower upper with
  | nil => trivial
  | cons key path ih =>
    cases path with
    | nil =>
      intro es hes
      obtain ⟨gs, hgs⟩ := hsrc.exists_map hk hes lower
      exact h gs hgs
    | cons next path =>
      intro v hv
      by_cases hmap : ∃ es, v = .map es
      · obtain ⟨es, rfl⟩ := hmap
        have hes : Keyed (.map es) := (keyed_map.mp hk).2 _ (mem_of_get? hv)
        refine ⟨es, rfl, ?_⟩
        rcases hsrc.get?_map_cases hk hv lower with ⟨fs, -, hlaid⟩ | ⟨-, hlaid⟩
        · obtain ⟨gs, hgs, hclear⟩ := h _ hlaid
          cases hgs
          exact ih hclear hes
        · obtain ⟨gs, hgs, hclear⟩ := h _ hlaid
          cases hgs
          exact hclear
      · have hplain : ∀ es, v ≠ .map es := fun es hes => hmap ⟨es, hes⟩
        obtain ⟨gs, rfl, -⟩ := h _ (hsrc.get?_plain_value hk hv hplain)
        exact absurd rfl (hplain gs)

/-- What an upper source has at the end of a path decides, whatever else it has and whatever the
lower source has there. -/
theorem valueAt?_lay (h : Clear path (src.lay lower upper)) (hk : Keyed (.map upper)) :
    valueAt? path (src.lay lower upper) = (valueAt? path upper).or (valueAt? path lower) := by
  induction path generalizing lower upper with
  | nil => rfl
  | cons key path ih =>
    cases path with
    | nil =>
      rw [valueAt?, valueAt?, valueAt?]
      cases hv : get? upper key with
      | none => rw [hsrc.get?_absent hk hv, Option.none_or]
      | some v =>
        have hplain : ∀ es, v ≠ .map es := by
          rintro es rfl
          exact hsrc.clear_of_lay h hk es hv
        rw [hsrc.get?_plain_value hk hv hplain, Option.some_or]
    | cons next path =>
      rw [valueAt?, valueAt?, valueAt?]
      cases hv : get? upper key with
      | none => simp [hsrc.get?_absent hk hv, entriesOf, valueAt?_nil]
      | some v =>
        obtain ⟨es, rfl, -⟩ := hsrc.clear_of_lay h hk v hv
        have hes : Keyed (.map es) := (keyed_map.mp hk).2 _ (mem_of_get? hv)
        rcases hsrc.get?_map_cases hk hv lower with ⟨fs, hfs, hlaid⟩ | ⟨hbelow, hlaid⟩
        · obtain ⟨gs, hgs, hclear⟩ := h _ hlaid
          cases hgs
          rw [hlaid, hfs]
          exact ih hclear hes
        · rw [hlaid, hbelow, valueAt?_nil, Option.or_none]

/-- Where no name in the upper layer is another spelling of a key, the last spelling is the one below,
unless the layer brings the key. -/
theorem lastNamed?_lay (hkey : Text.lower key = key) (hown : Keyed (.map own))
    (hspelt : ∀ name ∈ Entries.keys own, Text.lower name = key → name = key) :
    lastNamed? key (Entries.keys (src.lay es own)) =
      if key ∈ Entries.keys own ∧ key ∉ Entries.keys es then some key
      else lastNamed? key (Entries.keys es) := by
  rw [hsrc.keys_lay hown, lastNamed?_append]
  split_ifs with hnew
  · have hmem : key ∈ (Entries.keys own).filter (· ∉ Entries.keys es) :=
      List.mem_filter.mpr ⟨hnew.1, by simpa using hnew.2⟩
    obtain ⟨name, hname⟩ := exists_lastNamed? hkey hmem
    obtain ⟨hmem, hlower⟩ := mem_of_lastNamed? hname
    rw [hname, Option.some_or, hspelt name (List.mem_of_mem_filter hmem) hlower]
  · have hnone : lastNamed? key ((Entries.keys own).filter (· ∉ Entries.keys es)) = none := by
      refine lastNamed?_eq_none fun name hname hlower => hnew ?_
      obtain ⟨hmem, hout⟩ := List.mem_filter.mp hname
      obtain rfl := hspelt name hmem hlower
      exact ⟨hmem, by simpa using hout⟩
    rw [hnone, Option.none_or]

/-- Where no name in the upper layer is another spelling of a key, what the layer has under the key
decides, unless the key is there below and respelt after that. -/
theorem lastSpelt?_lay (hkey : Text.lower key = key) (hes : Keyed (.map es))
    (hown : Keyed (.map own)) (hnames : ∀ name ∈ Entries.keys own, Text.lower name = name) :
    lastSpelt? key (src.lay es own) =
      if get? own key = none ∨ respelt key es then lastSpelt? key es
      else get? (src.lay es own) key := by
  have hspelt : ∀ name ∈ Entries.keys own, Text.lower name = key → name = key :=
    fun name hname h => (hnames name hname).symm.trans h
  have hn := (keyed_map.mp hes).1
  have hstays : (get? own key = none ∨ respelt key es = true) ↔ key ∉ Entries.keys own ∨
      key ∈ Entries.keys es ∧ lastNamed? key (Entries.keys es) ≠ some key :=
    or_congr get?_eq_none_iff (respelt_iff hkey hn)
  rw [lastSpelt?_eq (keyed_map.mp (hsrc.keyed_lay hes hown)).1,
    hsrc.lastNamed?_lay hkey hown hspelt, lastSpelt?_eq hn, if_congr hstays rfl rfl]
  by_cases hnew : key ∈ Entries.keys own ∧ key ∉ Entries.keys es
  · rw [if_pos hnew, if_neg fun h => h.elim (· hnew.1) fun h => hnew.2 h.1]
    rfl
  rw [if_neg hnew]
  split_ifs with hbelow
  · cases hlast : lastNamed? key (Entries.keys es) with
    | none => rfl
    | some name =>
      -- a spelling that the upper layer does not have keeps its value
      refine hsrc.get?_absent hown (get?_eq_none fun hmem => ?_)
      obtain rfl := hspelt name hmem (mem_of_lastNamed? hlast).2
      exact hbelow.elim (· hmem) fun h => h.2 hlast
  · obtain ⟨hthere, hrespelt⟩ := not_or.mp hbelow
    have hmem : key ∈ Entries.keys es := by_contra fun h => hnew ⟨not_not.mp hthere, h⟩
    have hlast : lastNamed? key (Entries.keys es) = some key :=
      by_contra fun h => hrespelt ⟨hmem, h⟩
    rw [hlast]
    rfl

/-- Of a key in a section that variables give, its own variable decides before the JSON of the
section, unless that has the key as it is spelt and respelt after that. -/
theorem get?_section_key {named : Entries Value} (h : src.ofVariables env = some named)
    {keys : List String} (hsection : (part, keys) ∈ sections) (hmem : key ∈ keys)
    (hmark : ¬ sectionMark.toList <:+: key.toList)
    (hmap : ∀ v, json? env part = some v → ∃ es, v = .map es)
    (hplain : ∀ fs, get? (entriesOf (get? named part)) key ≠ some (.map fs)) :
    get? (entriesOf (get? named part)) key =
      if respelt key (entriesOf (json? env part)) then lastSpelt? key (entriesOf (json? env part))
      else ((varText? env (keyStart part ++ key)).map .text).or
        (lastSpelt? key (entriesOf (json? env part))) := by
  obtain ⟨own, hown, hget⟩ := hsrc.get?_section h hsection hmap
  have hjson : Keyed (.map (entriesOf (json? env part))) :=
    keyed_entriesOf fun v hv => keyed_json? hv
  have hkey := lower_of_mem_sections hsection hmem
  rw [hget key hmem, hsrc.lastSpelt?_lay hkey hjson hown.keyed hown.lower_eq] at hplain ⊢
  have hstands := hown.stands key hmark
  cases hvar : varText? env (keyStart part ++ key) with
  | some s =>
    rw [hvar, Stands] at hstands
    have hvalue : get? (src.lay (entriesOf (json? env part)) own) key = some (.text s) :=
      hsrc.get?_plain_value hown.keyed hstands (by simp)
    simp [hstands, hvalue]
  | none =>
    rw [hvar, Stands] at hstands
    cases hthere : get? own key with
    | none => simp
    | some v =>
      -- a variable whose name goes on behind the key has put a mapping there
      obtain ⟨fs, rfl⟩ := hstands v hthere
      obtain ⟨gs, hgs⟩ := hsrc.exists_map hown.keyed hthere (entriesOf (json? env part))
      by_cases hrespelt : respelt key (entriesOf (json? env part)) = true
      · simp [hrespelt]
      · simp only [hthere, hrespelt, reduceCtorEq, false_or, Bool.false_eq_true, if_false] at hplain
        exact absurd hgs (hplain gs)

end

end Sources.Lawful

end FieldRules.Settings
