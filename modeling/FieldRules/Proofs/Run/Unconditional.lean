import FieldRules.Proofs.Rule.Contradiction
import FieldRules.Proofs.Rule.Signature
import FieldRules.Proofs.Run.Reach
import FieldRules.Proofs.Run.Reset
import FieldRules.Proofs.Run.Standing

/-! Rules without conditions, between which no contradiction is found. All their targets hold after
a run exactly when those agree that address a common field by different names: the search compares
names, and does not know that the name of a group addresses the fields under it. -/
namespace FieldRules

namespace Path

variable {names : List String} {name other x : String}

theorem eq_or_isUnder (h : isUnder x name = true) (h' : isUnder x other = true) :
    name = other ∨ isUnder name other = true ∨ isUnder other name = true := by
  unfold isUnder Text.startsWith at h h' ⊢
  simp only [List.isPrefixOf_iff_prefix, String.toList_append] at h h' ⊢
  have hdot : ".".toList = ['.'] := rfl
  rw [hdot] at h h' ⊢
  have hname : ∀ s t : String, s.toList ++ ['.'] = t.toList ++ ['.'] → s = t :=
    fun s t hst => String.toList_inj.mp (List.append_cancel_right hst)
  rcases List.prefix_or_prefix_of_prefix h h' with hp | hp
  · rcases List.prefix_concat_iff.mp hp with heq | hp
    · exact .inl (hname _ _ heq)
    · exact .inr (.inr hp)
  · rcases List.prefix_concat_iff.mp hp with heq | hp
    · exact .inl (hname _ _ heq).symm
    · exact .inr (.inl hp)

/-- Two names that address a common one are the same, or one lies under the other. -/
theorem Addresses.eq_or_isUnder (h : Addresses names name x)
    (h' : Addresses names other x) :
    name = other ∨ isUnder name other = true ∨ isUnder other name = true := by
  rcases h with rfl | ⟨hname, hunder⟩
  · rcases h' with rfl | ⟨-, hunder'⟩
    · exact .inl rfl
    · exact .inr (.inl hunder')
  · rcases h' with rfl | ⟨-, hunder'⟩
    · exact .inr (.inr hunder)
    · exact Path.eq_or_isUnder hunder hunder'

end Path

/-- Two targets that set a field and stand on one field agree. -/
theorem Clause.agrees_of_fulfilled {s t : Clause} {f : Field} (hs : s.state ≠ .contains)
    (ht : t.state ≠ .contains) (hsf : s.Fulfilled f) (htf : t.Fulfilled f) :
    s.agrees t = true := by
  obtain ⟨sname, sdemand, snegated⟩ := s
  obtain ⟨tname, tdemand, tnegated⟩ := t
  obtain ⟨hsmark, hsvalue⟩ := hsf
  obtain ⟨htmark, htvalue⟩ := htf
  have hneg : snegated = tnegated := by simpa [hsmark] using htmark
  cases sdemand <;> cases tdemand <;>
    simp_all [state, Demand.state, agrees, Demand.suits]
  cases tnegated <;> simp_all

namespace Rule

variable {fields : List Field} {rules : List Rule} {r : Rule} {o : Outcome}

/-- Every target holds on every field that it addresses. -/
def Upheld (rules : List Rule) (fields : List Field) : Prop :=
  ∀ t ∈ rules.flatMap (·.targets), ∀ f ∈ fields,
    Path.Addresses (fields.map (·.name)) t.name f.name → t.Fulfilled f

theorem follow_eq_enforce (h : r.isUnconditional = true) (o : Outcome) :
    o.follow r = o.enforce r := by
  have happlies : r.applies o.fields = .ok true := by
    unfold applies
    rw [List.isEmpty_iff.mp h]
    rfl
  rw [Outcome.follow, happlies]
  rfl

theorem exists_apply_unconditional (fields : List Field)
    (hfree : ∀ r ∈ rules, r.isUnconditional = true)
    (hset : ∀ r ∈ rules, ∀ t ∈ r.targets, t.state ≠ .contains) :
    ∃ o, Rule.apply fields rules = .ok o := by
  have henforce : ∀ o : Outcome, ∀ r ∈ rules, True → ∃ o', o.follow r = .ok o' ∧ True := by
    intro o r hr _
    rw [follow_eq_enforce (hfree r hr)]
    refine Fault.exists_foldlM (fun o t ht _ => ?_) trivial
    refine Fault.exists_foldlM (fun o i _ _ => ?_) trivial
    unfold Outcome.enforceAt
    cases o.fields[i]? with
    | none => exact ⟨o, rfl, trivial⟩
    | some f =>
      dsimp only
      rw [Clause.enforceOn_eq_ok (hset r hr t ht)]
      exact ⟨_, rfl, trivial⟩
  rw [apply_eq]
  obtain ⟨o, ho, -⟩ := Fault.exists_foldlM (b := { fields }) henforce trivial
  exact ⟨o, ho⟩

/-- After rules without conditions, all targets stand if they agree. -/
theorem standsIn_of_concord (hfree : ∀ r ∈ rules, r.isUnconditional = true)
    (hset : ∀ r ∈ rules, ∀ t ∈ r.targets, t.state ≠ .contains)
    (hc : Concord (fields.map (·.name)) rules) (h : Rule.apply fields rules = .ok o) :
    ∀ r ∈ rules, r.StandsIn (fields.map (·.name)) o.fields := by
  have hsuited : Outcome.Suited (fields.map (·.name)) rules { fields } := by
    refine ⟨rfl, fun t ht i _ f _ hstate => ?_⟩
    obtain ⟨r, hr, htr⟩ := List.mem_flatMap.mp ht
    exact absurd hstate (hset r hr t htr)
  rw [apply_eq] at h
  refine (Fault.foldlM_each (P := Outcome.Suited (fields.map (·.name)) rules)
    (Q := fun r o => r.StandsIn (fields.map (·.name)) o.fields) h hsuited ?_ ?_ ?_).2
  · exact fun o o' r hr ho h => ho.follow hc hr h
  · intro o o' r hr ho h
    rw [follow_eq_enforce (hfree r hr)] at h
    exact Outcome.standsIn_of_enforce hc ho hr h
  · exact fun o o' r hr r' hr' ho h hst => Outcome.standsIn_follow hc ho hr hr' hst h

theorem upheld_iff_standsIn (hn : (fields.map (·.name)).Nodup)
    (hset : ∀ r ∈ rules, ∀ t ∈ r.targets, t.state ≠ .contains) :
    Upheld rules fields ↔ ∀ r ∈ rules, r.StandsIn (fields.map (·.name)) fields := by
  constructor
  · intro h r hr t ht i hi f hf
    have hname : (fields.map (·.name))[i]? = some f.name := by
      rw [List.getElem?_map, hf, Option.map_some]
    have hfulfilled := h t (List.mem_flatMap.mpr ⟨r, hr, ht⟩) f (List.mem_of_getElem? hf)
      ((Field.mem_reach_iff hn hname).mp hi)
    exact (Clause.stands_iff (hset r hr t ht)).mpr hfulfilled
  · intro h t ht f hf haddress
    obtain ⟨r, hr, htr⟩ := List.mem_flatMap.mp ht
    obtain ⟨i, hi⟩ := List.mem_iff_getElem?.mp hf
    have hname : (fields.map (·.name))[i]? = some f.name := by
      rw [List.getElem?_map, hi, Option.map_some]
    exact (Clause.stands_iff (hset r hr t htr)).mp
      (h r hr t htr i ((Field.mem_reach_iff hn hname).mpr haddress) f hi)

/-- After rules without conditions, all targets hold exactly when they agree. -/
theorem upheld_iff_concord (hn : (fields.map (·.name)).Nodup)
    (hfree : ∀ r ∈ rules, r.isUnconditional = true)
    (hset : ∀ r ∈ rules, ∀ t ∈ r.targets, t.state ≠ .contains)
    (h : Rule.apply fields rules = .ok o) :
    Upheld rules o.fields ↔ Concord (fields.map (·.name)) rules := by
  have hnames : o.fields.map (·.name) = fields.map (·.name) := names_apply h
  have hstate : ∀ t ∈ rules.flatMap (·.targets), t.state ≠ .contains := by
    intro t ht
    obtain ⟨r, hr, htr⟩ := List.mem_flatMap.mp ht
    exact hset r hr t htr
  constructor
  · intro hupheld s hs t ht i hi hi'
    obtain ⟨x, hx⟩ := Field.exists_of_mem_reach hi
    have haddress := (Field.mem_reach_iff hn hx).mp hi
    have haddress' := (Field.mem_reach_iff hn hx).mp hi'
    obtain ⟨f, hf, rfl⟩ : ∃ f ∈ o.fields, f.name = x :=
      List.mem_map.mp (hnames ▸ List.mem_of_getElem? hx)
    rw [← hnames] at haddress haddress'
    exact Clause.agrees_of_fulfilled (hstate s hs) (hstate t ht) (hupheld s hs f hf haddress)
      (hupheld t ht f hf haddress')
  · intro hc
    rw [upheld_iff_standsIn (hnames ▸ hn) hset, hnames]
    exact standsIn_of_concord hfree hset hc h

/-- Where no contradiction is found, only targets of different names can be at odds. -/
theorem concord_iff (hn : (fields.map (·.name)).Nodup)
    (hfree : ∀ r ∈ rules, r.isUnconditional = true) (hnil : contradictions rules = []) :
    Concord (fields.map (·.name)) rules ↔
      ∀ s ∈ rules.flatMap (·.targets), ∀ t ∈ rules.flatMap (·.targets), s.name ≠ t.name →
        ∀ f ∈ fields, Path.Addresses (fields.map (·.name)) s.name f.name →
          Path.Addresses (fields.map (·.name)) t.name f.name → s.agrees t = true := by
  constructor
  · intro hc s hs t ht _ f hf haddress haddress'
    obtain ⟨i, hi⟩ := List.mem_iff_getElem?.mp (List.mem_map_of_mem (f := (·.name)) hf)
    exact hc s hs t ht i ((Field.mem_reach_iff hn hi).mpr haddress)
      ((Field.mem_reach_iff hn hi).mpr haddress')
  · intro hdiffer s hs t ht i hi hi'
    by_cases hname : s.name = t.name
    · obtain ⟨r, hr, hsr⟩ := List.mem_flatMap.mp hs
      obtain ⟨r', hr', htr⟩ := List.mem_flatMap.mp ht
      have hsignature : r.signature = r'.signature := by
        rw [signature_eq_nil_iff.mpr (hfree r hr), signature_eq_nil_iff.mpr (hfree r' hr')]
      exact Clause.agrees_of_conflict?_eq_none
        (contradictions_eq_nil_iff.mp hnil r hr r' hr' hsignature s hsr t htr hname)
    · obtain ⟨x, hx⟩ := Field.exists_of_mem_reach hi
      have haddress := (Field.mem_reach_iff hn hx).mp hi
      have haddress' := (Field.mem_reach_iff hn hx).mp hi'
      obtain ⟨f, hf, rfl⟩ := List.mem_map.mp (List.mem_of_getElem? hx)
      exact hdiffer s hs t ht hname f hf haddress haddress'

/-- After rules without conditions that set fields, and between which no contradiction is found,
every target still holds exactly when those agree that address a common field by different names.
So it is wherever no target lies under another. -/
theorem upheld_iff (hn : (fields.map (·.name)).Nodup)
    (hfree : ∀ r ∈ rules, r.isUnconditional = true)
    (hset : ∀ r ∈ rules, ∀ t ∈ r.targets, t.state ≠ .contains)
    (hnil : contradictions rules = []) :
    ∃ o, Rule.apply fields rules = .ok o ∧
      (Upheld rules o.fields ↔
        ∀ s ∈ rules.flatMap (·.targets), ∀ t ∈ rules.flatMap (·.targets), s.name ≠ t.name →
          ∀ f ∈ fields, Path.Addresses (fields.map (·.name)) s.name f.name →
            Path.Addresses (fields.map (·.name)) t.name f.name → s.agrees t = true) ∧
      ((∀ s ∈ rules.flatMap (·.targets), ∀ t ∈ rules.flatMap (·.targets),
        Path.isUnder s.name t.name = false) → Upheld rules o.fields) := by
  obtain ⟨o, ho⟩ := exists_apply_unconditional fields hfree hset
  have hiff := (upheld_iff_concord hn hfree hset ho).trans (concord_iff hn hfree hnil)
  refine ⟨o, ho, hiff, fun hunder => hiff.mpr ?_⟩
  intro s hs t ht hname f _ haddress haddress'
  rcases haddress.eq_or_isUnder haddress' with heq | h | h
  · exact absurd heq hname
  · rw [hunder s hs t ht] at h
    cases h
  · rw [hunder t ht s hs] at h
    cases h

/-- A field and a group of two. -/
def gateway : List Field := [
  { name := "log", checked := some true }, { name := "net.host", value := .int 7 },
  { name := "net.port", value := .text "80", checked := some true }]

/-- Unchecks the log, checks the whole group, and gives one field of the group a value. -/
def lockdown : List Rule := [
  { targets := [⟨"log", .setToValue "full", true⟩, ⟨"net", .set none, false⟩] },
  { targets := [⟨"net.port", .setToValue "443", false⟩] }]

theorem lockdown_upheld : contradictions lockdown = [] ∧
    ∃ o, Rule.apply gateway lockdown = .ok o ∧ Upheld lockdown o.fields := by
  have halike : ∀ r ∈ lockdown, ∀ r' ∈ lockdown, ∀ s ∈ r.targets, ∀ t ∈ r'.targets,
      s.name = t.name → s.conflict? t = none := by decide
  have hnil : contradictions lockdown = [] :=
    contradictions_eq_nil_iff.mpr fun r hr r' hr' _ => halike r hr r' hr'
  have hn : (gateway.map (·.name)).Nodup := by decide
  obtain ⟨o, ho, hiff, -⟩ := upheld_iff hn (by decide) (by decide) hnil
  exact ⟨hnil, o, ho, hiff.mpr (by decide)⟩

/-- Unchecks a group, and checks a field of the group. -/
def crossfire : List Rule := [
  { targets := [⟨"net.port", .set none, false⟩] }, { targets := [⟨"net", .set none, true⟩] }]

theorem crossfire_not_upheld : (gateway.map (·.name)).Nodup ∧
    (∀ r ∈ crossfire, r.isUnconditional = true) ∧
    (∀ r ∈ crossfire, ∀ t ∈ r.targets, t.state ≠ .contains) ∧ contradictions crossfire = [] ∧
    ∃ o, Rule.apply gateway crossfire = .ok o ∧ ¬ Upheld crossfire o.fields := by
  have halike : ∀ r ∈ crossfire, ∀ r' ∈ crossfire, ∀ s ∈ r.targets, ∀ t ∈ r'.targets,
      s.name = t.name → s.conflict? t = none := by decide
  refine ⟨by decide, by decide, by decide,
    contradictions_eq_nil_iff.mpr fun r hr r' hr' _ => halike r hr r' hr', ?_⟩
  obtain ⟨o, ho⟩ : ∃ o, Rule.apply gateway crossfire = .ok o := ⟨_, rfl⟩
  refine ⟨o, ho, ?_⟩
  rw [upheld_iff_concord (by decide) (by decide) (by decide) ho]
  decide

end Rule

end FieldRules
