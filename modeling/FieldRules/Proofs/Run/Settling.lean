import FieldRules.Dependency.Contrapositive
import FieldRules.Proofs.Dependency.Order
import FieldRules.Proofs.Run.Reach
import FieldRules.Proofs.Run.Reset
import FieldRules.Proofs.Run.Total

/-! Rules that set fields, run again and again. Without cycles of dependencies they settle: a field
that depends on fields that no longer change is reset in the same way by every further run. -/
namespace FieldRules

/-- Two lists of fields agree at some positions. -/
def Field.Agree (D : ℕ → Prop) (fields fields' : List Field) : Prop :=
  ∀ i, D i → fields[i]? = fields'[i]?

/-- Where a rule changes a field at one of some positions, it only reads fields at some others. -/
def Rule.Reads (names : List String) (D : ℕ → Prop) (changed : ℕ → Prop) (r : Rule) : Prop :=
  ∀ t ∈ r.targets, ∀ i ∈ Field.reach names t.name, changed i →
    ∀ c ∈ r.conditionList, ∀ j ∈ Field.reach names c.name, D j

variable {fields fields' : List Field} {names : List String} {D D' : ℕ → Prop} {r : Rule}

namespace Outcome

variable {o o' p p' : Outcome} {rules : List Rule}

/-- In two states that agree on what a rule reads, it leaves the same. -/
theorem exists_reset_follow (ht : ∀ t ∈ r.targets, t.state ≠ .contains)
    (hr : r.Reads names D D') (hn : o.fields.map (·.name) = names)
    (hn' : p.fields.map (·.name) = names) (ha : Field.Agree D o.fields p.fields)
    (ho : o.follow r = .ok o') (hp : p.follow r = .ok p') :
    ∃ R : ℕ → Reset, ∀ i, D' i → o'.fields[i]? = o.fields[i]?.map (R i).on ∧
      p'.fields[i]? = p.fields[i]?.map (R i).on := by
  obtain ⟨met, hmet, ho'⟩ := fields_follow ht hn ho
  obtain ⟨met', hmet', hp'⟩ := fields_follow ht hn' hp
  by_cases hchanged : ∃ t ∈ r.targets, ∃ i ∈ Field.reach names t.name, D' i
  · obtain ⟨t, htr, i, hi, hD'⟩ := hchanged
    have hsame : r.applies o.fields = r.applies p.fields :=
      Rule.applies_congr hn hn' fun c hc j hj => ha j (hr t htr i hi hD' c hc j hj)
    have heq : met = met' := by
      rw [hmet, hmet'] at hsame
      exact Except.ok.inj hsame
    subst heq
    exact ⟨_, fun i _ => ⟨ho' i, hp' i⟩⟩
  · refine ⟨fun _ => {}, fun i hi => ?_⟩
    have hempty : r.resetAt names i = {} :=
      Rule.resetAt_eq_empty fun t htr hreach => hchanged ⟨t, htr, i, hreach, hi⟩
    have ho'' := ho' i
    have hp'' := hp' i
    rw [hempty, ite_self] at ho'' hp''
    exact ⟨ho'', hp''⟩

/-- The same of all rules in a row. -/
theorem exists_reset (hsub : ∀ i, D i → D' i)
    (ht : ∀ r ∈ rules, ∀ t ∈ r.targets, t.state ≠ .contains)
    (hr : ∀ r ∈ rules, r.Reads names D D') (hn : o.fields.map (·.name) = names)
    (hn' : p.fields.map (·.name) = names) (ha : Field.Agree D o.fields p.fields)
    (ho : rules.foldlM follow o = .ok o') (hp : rules.foldlM follow p = .ok p') :
    ∃ R : ℕ → Reset, ∀ i, D' i → o'.fields[i]? = o.fields[i]?.map (R i).on ∧
      p'.fields[i]? = p.fields[i]?.map (R i).on := by
  induction rules generalizing o p with
  | nil =>
    cases ho
    cases hp
    exact ⟨fun _ => {}, by simp⟩
  | cons r rules ih =>
    rw [List.foldlM_cons] at ho hp
    obtain ⟨o₁, ho₁, ho⟩ := Fault.bind_eq_ok.mp ho
    obtain ⟨p₁, hp₁, hp⟩ := Fault.bind_eq_ok.mp hp
    obtain ⟨htr, ht⟩ := List.forall_mem_cons.mp ht
    obtain ⟨hrr, hr⟩ := List.forall_mem_cons.mp hr
    obtain ⟨R, hR⟩ := exists_reset_follow htr hrr hn hn' ha ho₁ hp₁
    have ha₁ : Field.Agree D o₁.fields p₁.fields := by
      intro i hi
      obtain ⟨ho₁, hp₁⟩ := hR i (hsub i hi)
      rw [ho₁, hp₁, ha i hi]
    have hn₁ := (names_follow ho₁).trans hn
    have hn₁' := (names_follow hp₁).trans hn'
    obtain ⟨S, hS⟩ := ih ht hr hn₁ hn₁' ha₁ ho hp
    refine ⟨fun i => (R i).followedBy (S i), fun i hi => ?_⟩
    obtain ⟨ho', hp'⟩ := hS i hi
    obtain ⟨ho₁, hp₁⟩ := hR i hi
    rw [ho', hp', ho₁, hp₁, Option.map_map, Option.map_map, Reset.on_followedBy]
    exact ⟨rfl, rfl⟩

end Outcome

namespace Rule

variable {rules : List Rule} {level : String → ℕ}

/-- The fields after some runs, each over what the run before it left. -/
def fieldsAfter (rules : List Rule) (fields : List Field) : ℕ → Except Fault (List Field)
  | 0 => .ok fields
  | n + 1 => do
    let o ← Rule.apply (← fieldsAfter rules fields n) rules
    return o.fields

theorem exists_fieldsAfter (hw : Field.AllWritable fields) (rules : List Rule) (n : ℕ) :
    ∃ after, fieldsAfter rules fields n = .ok after ∧ Field.AllWritable after ∧
      after.map (·.name) = fields.map (·.name) := by
  induction n with
  | zero => exact ⟨fields, rfl, hw, rfl⟩
  | succ n ih =>
    obtain ⟨after, hafter, hw', hn⟩ := ih
    obtain ⟨o, ho, hwo⟩ := Rule.exists_apply hw' rules
    refine ⟨o.fields, ?_, hwo, (names_apply ho).trans hn⟩
    rw [fieldsAfter, hafter]
    simp only [bind, Except.bind, ho]
    rfl

/-- The positions of the fields below a level. -/
def Below (level : String → ℕ) (names : List String) (L i : ℕ) : Prop :=
  ∃ u, names[i]? = some u ∧ level u < L

/-- Where dependencies rise in level, a rule changes a field after reading only lower ones. -/
theorem reads_below (hr : r ∈ rules)
    (hexact : ∀ name ∈ r.names, ∀ i ∈ Field.reach names name, names[i]? = some name)
    (hself : ∀ c ∈ r.conditionList, ∀ t ∈ r.targets, t.name ≠ c.name)
    (hlevel : ∀ u ∈ names, ∀ v, (Dependency.ofRules rules).Edge u v → level u < level v)
    (L : ℕ) : r.Reads names (Below level names L) (Below level names (L + 1)) := by
  rintro t ht i hi ⟨u, hu, hlt⟩ c hc j hj
  have htarget := hexact t.name (List.mem_map.mpr ⟨t, by simp [ht], rfl⟩) i hi
  have hcondition := hexact c.name (List.mem_map.mpr ⟨c, by simp [hc], rfl⟩) j hj
  have hut : u = t.name := Option.some.inj (hu.symm.trans htarget)
  subst hut
  have hedge : (Dependency.ofRules rules).Edge c.name t.name :=
    Dependency.edge_ofRules.mpr ⟨r, hr, c, hc, rfl, t, ht, hself c hc t ht, rfl⟩
  have hrise := hlevel c.name (List.mem_of_getElem? hcondition) t.name hedge
  exact ⟨c.name, hcondition, by omega⟩

/-- Each run settles one more level of fields. -/
theorem agree_below {S : ℕ → List Field} (hn : ∀ n, (S n).map (·.name) = names)
    (hrun : ∀ n, ∃ o, Rule.apply (S n) rules = .ok o ∧ o.fields = S (n + 1))
    (hset : ∀ r ∈ rules, ∀ t ∈ r.targets, t.state ≠ .contains)
    (hreads : ∀ L, ∀ r ∈ rules, r.Reads names (Below level names L) (Below level names (L + 1)))
    (L : ℕ) : Field.Agree (Below level names L) (S L) (S (L + 1)) := by
  induction L with
  | zero =>
    rintro i ⟨u, hu, hlt⟩
    omega
  | succ L ih =>
    obtain ⟨o, ho, hoS⟩ := hrun L
    obtain ⟨p, hp, hpS⟩ := hrun (L + 1)
    rw [Rule.apply_eq] at ho hp
    have hsub : ∀ i, Below level names L i → Below level names (L + 1) i :=
      fun i ⟨u, hu, hlt⟩ => ⟨u, hu, by omega⟩
    obtain ⟨R, hR⟩ := Outcome.exists_reset hsub hset (hreads L) (hn L) (hn (L + 1)) ih ho hp
    intro i hi
    obtain ⟨hoi, hpi⟩ := hR i hi
    rw [hoS] at hoi
    rw [hpS] at hpi
    dsimp only at hoi hpi
    -- the second run resets the field once more in the same way
    rw [hpi, hoi, Option.map_map, Reset.on_comp_on]

/-- Rules that set fields, that name fields exactly and none of whose conditions is a target of the
same rule settle after as many runs as there are fields, if no cycle is found between them. -/
theorem fieldsAfter_settles (hw : Field.AllWritable fields)
    (hset : ∀ r ∈ rules, ∀ t ∈ r.targets, t.state ≠ .contains)
    (hexact : ∀ r ∈ rules, ∀ name ∈ r.names,
      name ∈ fields.map (·.name) ∨ Field.under fields name = [])
    (hself : ∀ r ∈ rules, ∀ c ∈ r.conditionList, ∀ t ∈ r.targets, t.name ≠ c.name)
    (hnil : Dependency.cycleMessages rules = []) :
    ∃ settled, fieldsAfter rules fields fields.length = .ok settled ∧
      fieldsAfter rules fields (fields.length + 1) = .ok settled := by
  choose S hS hwS hnS using exists_fieldsAfter hw rules
  have hrun : ∀ n, ∃ o, Rule.apply (S n) rules = .ok o ∧ o.fields = S (n + 1) := by
    intro n
    obtain ⟨o, ho, -⟩ := Rule.exists_apply (hwS n) rules
    have hnext := hS (n + 1)
    rw [fieldsAfter, hS n] at hnext
    simp only [bind, Except.bind, ho] at hnext
    exact ⟨o, ho, Except.ok.inj hnext⟩
  obtain ⟨level, hlt, hlevel⟩ := Dependency.exists_level (Dependency.wellFormed_ofRules rules)
    (List.map_eq_nil_iff.mp hnil) (fields.map (·.name))
  have hagree := agree_below hnS hrun hset (fun L r hr => reads_below hr
    (fun name hname i hi => Field.name_of_mem_reach (hexact r hr name hname) hi)
    (hself r hr) hlevel L) fields.length
  refine ⟨S fields.length, hS _, ?_⟩
  rw [hS (fields.length + 1)]
  congr 1
  apply List.ext_getElem?
  intro i
  by_cases hi : i < fields.length
  · have hu : (fields.map (·.name))[i]? = some fields[i].name := by simp [hi]
    have hbelow := hlt fields[i].name (List.mem_of_getElem? hu)
    rw [List.length_map] at hbelow
    exact (hagree i ⟨fields[i].name, hu, hbelow⟩).symm
  · have hlen : ∀ n, (S n).length = fields.length := fun n => by
      simpa using congrArg List.length (hnS n)
    rw [List.getElem?_eq_none (by rw [hlen]; omega), List.getElem?_eq_none (by rw [hlen]; omega)]

/-- If `second` is set, `third` is, and if `first` is set, `second` is. -/
def relay : List Rule := [
  { conditions := some [⟨"second", .set none, false⟩], targets := [⟨"third", .set none, false⟩] },
  { conditions := some [⟨"first", .set none, false⟩], targets := [⟨"second", .set none, false⟩] }]

/-- Three fields of which only the first is set. -/
def relayed : List Field := [
  { name := "first", value := .list [.text "v", .null], checked := some true },
  { name := "second", value := .text "x" },
  { name := "third", value := .text "y" }]

theorem relay_settles : Dependency.cycleMessages relay = [] ∧
    ∃ settled, fieldsAfter relay relayed 3 = .ok settled ∧
      fieldsAfter relay relayed 4 = .ok settled := by
  have hnil : Dependency.cycleMessages relay = [] := by decide
  have hw : Field.AllWritable relayed := by
    simp [Field.AllWritable, relayed, Value.Writable, Value.WritableItems]
  exact ⟨hnil, fieldsAfter_settles hw (by decide) (by decide) (by decide) hnil⟩

end Rule

end FieldRules
