import FieldRules.Proofs.Grouping
import FieldRules.Proofs.Rule.Standing
import FieldRules.Rule.Conflict

/-! What the search for contradictions compares: targets of one name in rules that hold together. It
finds nothing exactly when all of these ask for the same. -/
namespace FieldRules

variable {rules : List Rule} {s t : Clause}

theorem Clause.conflict?_eq_none_iff : s.conflict? t = none ↔ s.negated = t.negated ∧
    s.state = t.state ∧ s.demand.subject? = t.demand.subject? := by
  unfold conflict?
  split_ifs <;> simp_all

theorem Clause.agrees_of_conflict?_eq_none (h : s.conflict? t = none) : s.agrees t = true := by
  obtain ⟨hneg, hstate, hsubject⟩ := conflict?_eq_none_iff.mp h
  obtain ⟨sname, sdemand, snegated⟩ := s
  obtain ⟨tname, tdemand, tnegated⟩ := t
  cases sdemand <;> cases tdemand <;>
    simp_all [state, Demand.state, Demand.subject?, agrees, Demand.suits]

namespace Rule

theorem targetConflicts_eq_nil_iff : targetConflicts rules = [] ↔
    ∀ s ∈ rules.flatMap (·.targets), ∀ t ∈ rules.flatMap (·.targets),
      s.name = t.name → s.conflict? t = none := by
  unfold targetConflicts
  simp only [List.flatMap_eq_nil_iff, List.filterMap_eq_nil_iff, Option.map_eq_none_iff]
  constructor
  · intro h s hs t ht hname
    have hgroup := h (t.name, (rules.flatMap (·.targets)).filter fun u => u.name = t.name)
      (Grouping.mem_groups.mpr ⟨⟨t, ht, rfl⟩, rfl⟩)
    have hs : s ∈ (rules.flatMap (·.targets)).filter fun u => u.name = t.name :=
      List.mem_filter.mpr ⟨hs, by simpa using hname⟩
    have ht : t ∈ (rules.flatMap (·.targets)).filter fun u => u.name = t.name :=
      List.mem_filter.mpr ⟨ht, by simp⟩
    rcases Grouping.mem_pairs_or hs ht with rfl | hst | hts
    · exact Clause.conflict?_eq_none_iff.mpr ⟨rfl, rfl, rfl⟩
    · exact hgroup (s, t) hst
    · obtain ⟨hneg, hstate, hsubject⟩ := Clause.conflict?_eq_none_iff.mp (hgroup (t, s) hts)
      exact Clause.conflict?_eq_none_iff.mpr ⟨hneg.symm, hstate.symm, hsubject.symm⟩
  · rintro h ⟨name, group⟩ hgroup ⟨s, t⟩ hst
    obtain ⟨-, rfl⟩ := Grouping.mem_groups.mp hgroup
    obtain ⟨hs, ht⟩ := Grouping.mem_of_mem_pairs hst
    obtain ⟨hs, hsname⟩ := List.mem_filter.mp hs
    obtain ⟨ht, htname⟩ := List.mem_filter.mp ht
    have hname : s.name = t.name := (of_decide_eq_true hsname).trans (of_decide_eq_true htname).symm
    exact h s hs t ht hname

theorem mem_group {k : List Trait} {r : Rule} :
    r ∈ (rules.zipIdx.filter fun p => p.1.signature = k).map (·.1) ↔
      r ∈ rules ∧ r.signature = k := by
  simp only [List.mem_map, List.mem_filter, decide_eq_true_eq, Prod.exists,
    List.mk_mem_zipIdx_iff_getElem?]
  constructor
  · rintro ⟨r', i, ⟨hi, hk⟩, rfl⟩
    exact ⟨List.mem_of_getElem? hi, hk⟩
  · rintro ⟨hr, hk⟩
    obtain ⟨i, hi⟩ := List.mem_iff_getElem?.mp hr
    exact ⟨r, i, ⟨hi, hk⟩, rfl⟩

/-- No contradiction is found exactly when targets of one name in rules of one signature always ask
for the same. -/
theorem contradictions_eq_nil_iff : contradictions rules = [] ↔
    ∀ r ∈ rules, ∀ r' ∈ rules, r.signature = r'.signature →
      ∀ s ∈ r.targets, ∀ t ∈ r'.targets, s.name = t.name → s.conflict? t = none := by
  unfold contradictions bySignature
  simp only [List.flatMap_eq_nil_iff, targetConflicts_eq_nil_iff]
  constructor
  · intro h r hr r' hr' hsignature s hs t ht
    obtain ⟨i, hi⟩ := List.mem_iff_getElem?.mp hr'
    have hgroup := h (r'.signature, _) (Grouping.mem_groups.mpr
      ⟨⟨(r', i), List.mk_mem_zipIdx_iff_getElem?.mpr hi, rfl⟩, rfl⟩)
    exact hgroup s (List.mem_flatMap.mpr ⟨r, mem_group.mpr ⟨hr, hsignature⟩, hs⟩) t
      (List.mem_flatMap.mpr ⟨r', mem_group.mpr ⟨hr', rfl⟩, ht⟩)
  · rintro h ⟨k, group⟩ hgroup s hs t ht
    obtain ⟨-, rfl⟩ := Grouping.mem_groups.mp hgroup
    obtain ⟨r, hr, hsr⟩ := List.mem_flatMap.mp hs
    obtain ⟨r', hr', htr⟩ := List.mem_flatMap.mp ht
    obtain ⟨hr, hk⟩ := mem_group.mp hr
    obtain ⟨hr', hk'⟩ := mem_group.mp hr'
    exact h r hr r' hr' (hk.trans hk'.symm) s hsr t htr

end Rule

end FieldRules
