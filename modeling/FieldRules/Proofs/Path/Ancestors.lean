import FieldRules.Field
import FieldRules.Proofs.Grouping
import FieldRules.Proofs.Path
import Mathlib.Data.List.Perm.Basic
import Mathlib.Data.String.Basic

/-! The ancestors of names. They are found by cutting names into segments, and they are the paths
under which some name lies, which is asked of the texts alone. -/
namespace FieldRules.Path

variable {name parent p : String} {names : List String}

theorem isUnder_iff : isUnder name parent = true ↔ ∃ rest, name = parent ++ "." ++ rest := by
  rw [isUnder, Text.startsWith, List.isPrefixOf_iff_prefix]
  constructor
  · rintro ⟨rest, hrest⟩
    exact ⟨String.ofList rest, by rw [← String.toList_inj, ← hrest]; simp⟩
  · rintro ⟨rest, rfl⟩
    exact ⟨rest.toList, by simp⟩

/-- The segments of a name start with those of another if it is that name or lies under it. -/
theorem segments_prefix_iff :
    segments parent <+: segments name ↔ name = parent ∨ isUnder name parent = true := by
  constructor
  · intro h
    by_cases heq : parent = name
    · exact .inl heq.symm
    · have hunder := isUnder_of_prefix h heq
      exact .inr hunder
  · rintro (rfl | h)
    · exact List.prefix_rfl
    · obtain ⟨rest, rfl⟩ := isUnder_iff.mp h
      rw [segments_append]
      exact List.prefix_append _ _

theorem mem_lineage_iff : p ∈ lineage name ↔ segments p <+: segments name := by
  simp only [lineage, List.mem_map, List.mem_range]
  constructor
  · rintro ⟨i, hi, rfl⟩
    have hne : (segments name).take (i + 1) ≠ [] := by
      rw [← List.length_pos_iff, List.length_take]
      omega
    have hdot : ∀ k ∈ (segments name).take (i + 1), '.' ∉ k.toList :=
      fun k hk => not_mem_of_mem_segments (List.mem_of_mem_take hk)
    rw [segments_ofSegments hne hdot]
    exact List.take_prefix _ _
  · intro h
    have hpos : 0 < (segments p).length := List.length_pos_iff.mpr (segments_ne_nil p)
    have hlast : (segments p).length - 1 + 1 = (segments p).length := by omega
    refine ⟨(segments p).length - 1, lt_of_lt_of_le (by omega) h.length_le, ?_⟩
    rw [hlast, ← List.prefix_iff_eq_take.mp h, ofSegments_segments]

theorem mem_withAncestors :
    p ∈ withAncestors names ↔ ∃ name ∈ names, segments p <+: segments name := by
  simp only [withAncestors, List.mem_mergeSort, List.mem_eraseDups, List.mem_flatMap,
    mem_lineage_iff]

theorem withAncestors_sorted (names : List String) : (withAncestors names).Pairwise (· < ·) := by
  have hle : (withAncestors names).Pairwise fun a b => decide (a ≤ b) = true := by
    apply List.pairwise_mergeSort
    · simp only [decide_eq_true_eq]
      exact fun a b c => le_trans
    · simp only [Bool.or_eq_true, decide_eq_true_eq]
      exact le_total
  have hnodup : (withAncestors names).Nodup :=
    (List.mergeSort_perm _ _).nodup_iff.mpr (Grouping.nodup_eraseDups _)
  exact hle.imp₂ (fun _ _ hab hne => lt_of_le_of_ne (of_decide_eq_true hab) hne) hnodup

/-- Ascending texts ascend by their code points. -/
theorem map_toNat_lt {s t : String} (h : s < t) : s.toList.map (·.toNat) < t.toList.map (·.toNat) :=
  List.map_lt (fun _ _ hcd => hcd) (String.lt_iff_toList_lt.mp h)

theorem withAncestors_withAncestors (names : List String) :
    withAncestors (withAncestors names) = withAncestors names := by
  have hmem : ∀ p, p ∈ withAncestors (withAncestors names) ↔ p ∈ withAncestors names := by
    intro p
    constructor
    · intro h
      obtain ⟨q, hq, hpq⟩ := mem_withAncestors.mp h
      obtain ⟨name, hname, hqn⟩ := mem_withAncestors.mp hq
      exact mem_withAncestors.mpr ⟨name, hname, hpq.trans hqn⟩
    · exact fun h => mem_withAncestors.mpr ⟨p, h, List.prefix_rfl⟩
  -- both lists ascend, so the same members stand in the same order
  have houter := withAncestors_sorted (withAncestors names)
  have hinner := withAncestors_sorted names
  have hperm := (List.perm_ext_iff_of_nodup houter.nodup hinner.nodup).mpr hmem
  exact hperm.eq_of_pairwise (fun _ _ _ _ hab hba => absurd hba hab.asymm) houter hinner

/-- The paths that names bring with them are the names and every path under which a field lies.
They ascend by code point, and bring no more paths with them. -/
theorem withAncestors_eq_under (fields : List Field) :
    let names := fields.map (·.name)
    (∀ p, p ∈ withAncestors names ↔ p ∈ names ∨ Field.under fields p ≠ []) ∧
    (withAncestors names).Pairwise (fun a b => a.toList.map (·.toNat) < b.toList.map (·.toNat)) ∧
    withAncestors (withAncestors names) = withAncestors names := by
  intro names
  refine ⟨fun p => ?_, (withAncestors_sorted names).imp map_toNat_lt,
    withAncestors_withAncestors names⟩
  have hunder : Field.under fields p ≠ [] ↔ ∃ name ∈ names, isUnder name p = true := by
    simp [Field.under, names, List.filter_eq_nil_iff]
  simp only [mem_withAncestors, segments_prefix_iff, hunder]
  constructor
  · rintro ⟨name, hname, rfl | h⟩
    · exact .inl hname
    · exact .inr ⟨name, hname, h⟩
  · rintro (h | ⟨name, hname, h⟩)
    · exact ⟨p, h, .inl rfl⟩
    · exact ⟨name, hname, .inr h⟩

example : withAncestors ["a.b", ".c", "a..d", "ab"] =
    ["", ".c", "a", "a.", "a..d", "a.b", "ab"] := by cbv

end FieldRules.Path
