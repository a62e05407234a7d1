import FieldRules.Proofs.Fault
import FieldRules.Rule.Condition
import Mathlib.Data.List.Basic

/-! The positions that a name reaches: that of the last field of the name, or else those of all
fields under it. Conditions read nothing else. -/
namespace FieldRules

/-- A name addresses itself, or, where nothing bears it, all names under it. -/
def Path.Addresses (names : List String) (name x : String) : Prop :=
  x = name ∨ name ∉ names ∧ Path.isUnder x name = true

instance (names : List String) (name x : String) : Decidable (Path.Addresses names name x) :=
  inferInstanceAs (Decidable (_ ∨ _ ∧ _))

namespace Field

variable {fields : List Field} {names : List String} {name : String} {i : ℕ}

theorem mem_filter_zipIdx {p : String → Bool} {x : String} :
    (x, i) ∈ names.zipIdx.filter (fun n => p n.1) ↔ names[i]? = some x ∧ p x = true := by
  rw [List.mem_filter, List.mk_mem_zipIdx_iff_getElem?]

theorem exists_reach_eq (h : name ∈ names) :
    ∃ i, names[i]? = some name ∧ reach names name = [i] := by
  unfold reach
  split
  · rename_i x i hlast
    obtain ⟨hi, hx⟩ := (mem_filter_zipIdx (p := (· == name))).mp (List.mem_of_getLast? hlast)
    rw [beq_iff_eq.mp hx] at hi
    exact ⟨i, hi, rfl⟩
  · rename_i hnone
    obtain ⟨i, hi⟩ := List.mem_iff_getElem?.mp h
    have hin := (mem_filter_zipIdx (p := (· == name))).mpr ⟨hi, beq_self_eq_true name⟩
    rw [List.getLast?_eq_none_iff.mp hnone] at hin
    exact absurd hin List.not_mem_nil

theorem mem_reach_of_not_mem (h : name ∉ names) :
    i ∈ reach names name ↔ ∃ x, names[i]? = some x ∧ Path.isUnder x name = true := by
  unfold reach
  split
  · rename_i x j hlast
    obtain ⟨hj, hx⟩ := (mem_filter_zipIdx (p := (· == name))).mp (List.mem_of_getLast? hlast)
    rw [beq_iff_eq.mp hx] at hj
    exact absurd (List.mem_of_getElem? hj) h
  · constructor
    · intro hi
      obtain ⟨⟨x, j⟩, hmem, rfl⟩ := List.mem_map.mp hi
      exact ⟨x, (mem_filter_zipIdx (p := (Path.isUnder · name))).mp hmem⟩
    · rintro ⟨x, hi⟩
      have hmem := (mem_filter_zipIdx (p := (Path.isUnder · name))).mpr hi
      exact List.mem_map.mpr ⟨(x, i), hmem, rfl⟩

/-- Where names differ, the name of a field reaches that field. -/
theorem reach_eq_singleton (hn : names.Nodup) (hi : names[i]? = some name) :
    reach names name = [i] := by
  obtain ⟨j, hj, hreach⟩ := exists_reach_eq (List.mem_of_getElem? hi)
  have hlt := (List.getElem?_eq_some_iff.mp hi).1
  rw [hreach, (List.getElem?_inj hlt hn).mp (hi.trans hj.symm)]

theorem exists_of_mem_reach (hi : i ∈ reach names name) : ∃ x, names[i]? = some x := by
  by_cases hname : name ∈ names
  · obtain ⟨j, hj, hreach⟩ := exists_reach_eq hname
    rw [hreach, List.mem_singleton] at hi
    exact ⟨name, hi ▸ hj⟩
  · obtain ⟨x, hx, -⟩ := (mem_reach_of_not_mem hname).mp hi
    exact ⟨x, hx⟩

/-- Where names differ, a name reaches what it addresses. -/
theorem mem_reach_iff {x : String} (hn : names.Nodup) (hi : names[i]? = some x) :
    i ∈ reach names name ↔ Path.Addresses names name x := by
  by_cases hname : name ∈ names
  · obtain ⟨j, hj, hreach⟩ := exists_reach_eq hname
    have hlt := (List.getElem?_eq_some_iff.mp hi).1
    rw [hreach, List.mem_singleton]
    constructor
    · rintro rfl
      exact .inl (Option.some.inj (hi.symm.trans hj))
    · rintro (rfl | ⟨hnot, -⟩)
      · exact (List.getElem?_inj hlt hn).mp (hi.trans hj.symm)
      · exact absurd hname hnot
  · rw [mem_reach_of_not_mem hname]
    constructor
    · rintro ⟨y, hy, hunder⟩
      rw [hi] at hy
      cases hy
      exact .inr ⟨hname, hunder⟩
    · rintro (rfl | ⟨-, hunder⟩)
      · exact absurd (List.mem_of_getElem? hi) hname
      · exact ⟨x, hi, hunder⟩

/-- A name that is that of a field or has no fields under it reaches only fields of that name. -/
theorem name_of_mem_reach (h : name ∈ fields.map (·.name) ∨ Field.under fields name = [])
    (hi : i ∈ reach (fields.map (·.name)) name) : (fields.map (·.name))[i]? = some name := by
  by_cases hname : name ∈ fields.map (·.name)
  · obtain ⟨j, hj, hreach⟩ := exists_reach_eq hname
    rw [hreach, List.mem_singleton] at hi
    rw [hi, hj]
  · obtain ⟨x, hx, hunder⟩ := (mem_reach_of_not_mem hname).mp hi
    obtain ⟨f, hf, rfl⟩ := List.mem_map.mp (List.mem_of_getElem? hx)
    have hin : f ∈ Field.under fields name := List.mem_filter.mpr ⟨hf, hunder⟩
    rw [h.resolve_left hname] at hin
    exact absurd hin List.not_mem_nil

end Field

variable {fields fields' : List Field} {names : List String} {r : Rule}

theorem Clause.holds_congr {c : Clause} (hn : fields.map (·.name) = names)
    (hn' : fields'.map (·.name) = names)
    (h : ∀ i ∈ Field.reach names c.name, fields[i]? = fields'[i]?) :
    c.holds fields = c.holds fields' := by
  have hreached : Field.reached fields c.name = Field.reached fields' c.name := by
    unfold Field.reached
    rw [hn, hn']
    exact List.filterMap_congr h
  unfold holds
  rw [hreached]

theorem Rule.applies_congr (hn : fields.map (·.name) = names) (hn' : fields'.map (·.name) = names)
    (h : ∀ c ∈ r.conditionList, ∀ i ∈ Field.reach names c.name, fields[i]? = fields'[i]?) :
    r.applies fields = r.applies fields' :=
  Fault.allM_congr fun c hc => Clause.holds_congr hn hn' (h c hc)

end FieldRules
