import FieldRules.Proofs.Value.Listing
import Mathlib.Data.List.Infix

/-! Checked fields laid out as one nested mapping. Flattening it gives the fields back, except where
positions stand below positions: a list that is an item of a list is not flattened. -/
namespace FieldRules

namespace Path

variable {ps qs : List (List String)}

theorem next_of_perm (h : ps.Perm qs) : Next ps = Next qs := by
  funext path s
  unfold Next
  simp only [h.mem_iff]

theorem isListing_of_perm (h : ps.Perm qs) : IsListing ps = IsListing qs := by
  unfold IsListing
  rw [next_of_perm h]

theorem listInList_of_perm (h : ps.Perm qs) : ListInList ps = ListInList qs := by
  unfold ListInList
  rw [next_of_perm h, isListing_of_perm h]

end Path

namespace Value

theorem exists_map_of_listify {es : Entries Value} {w : Value} (h : listify (.map es) = .ok w)
    (hlist : w.isList = false) : ∃ fs, w = .map fs := by
  rw [listify] at h
  obtain ⟨fs, -, h⟩ := Fault.bind_eq_ok.mp h
  unfold ofEntries at h
  split at h
  · obtain ⟨placed, -, h⟩ := Fault.bind_eq_ok.mp h
    cases h
    cases hlist
  · cases h
    exact ⟨_, rfl⟩

end Value

namespace Field

open FieldRules.Path (Next IsListing ListInList IsCount)

variable {fields : List Field}

/-- The segments of the names of fields. -/
def paths (fields : List Field) : List (List String) :=
  fields.map fun f => Path.segments f.name

/-- The values of fields, each at the end of the segments of its name. -/
def located (fields : List Field) : List (List String × Value) :=
  fields.map fun f => (Path.segments f.name, f.value)

/-- Checked fields of which each has a place of its own in a nested mapping: no name lies under
another, and wherever only positions come next they are counted from one. -/
structure Placed (fields : List Field) : Prop where
  checked : ∀ f ∈ fields, f.checked = some true
  scalar : ∀ f ∈ fields, f.value.IsScalar
  nodup : (fields.map (·.name)).Nodup
  segment : ∀ f ∈ fields, ∀ s ∈ Path.segments f.name, s ≠ "" ∧ '\n' ∉ s.toList
  notUnder : ∀ f ∈ fields, ∀ g ∈ fields, Path.isUnder f.name g.name = false
  numbered : ∀ path, IsListing (paths fields) path →
    ∃ n, ∀ s, Next (paths fields) path s ↔ IsCount n s
  top : ¬ IsListing (paths fields) []
  size : fields.length < Nat.pow 10 Numeral.maxDigits

theorem Placed.tree_eq (h : Placed fields) : tree fields = Value.grow [] (located fields) := by
  have hchecked : fields.filter isChecked = fields := by
    rw [List.filter_eq_self]
    intro f hf
    simp [isChecked, h.checked f hf]
  rw [tree, hchecked, located, Value.grow, List.foldl_map]

theorem Placed.apart (h : Placed fields) :
    (located fields).Pairwise fun b c => Value.Apart b.1 c.1 := by
  have hne : fields.Pairwise fun f g => f.name ≠ g.name := List.pairwise_map.mp h.nodup
  refine List.pairwise_map.mpr (hne.imp_of_mem fun {f g} hf hg hne => ?_)
  constructor
  · intro hstart
    simpa [h.notUnder g hg f hf] using Path.isUnder_of_prefix hstart hne
  · intro hstart
    simpa [h.notUnder f hf g hg] using Path.isUnder_of_prefix hstart hne.symm

theorem Placed.tree_grown (h : Placed fields) :
    (Entries.keys (tree fields)).Nodup ∧ (∀ e ∈ tree fields, Value.Grown e.2) ∧
      (Value.entryBranches (tree fields)).Perm (located fields) := by
  have hlocated : ∀ b ∈ located fields, b.1 ≠ [] ∧ b.2.IsScalar := by
    intro b hb
    obtain ⟨f, hf, rfl⟩ := List.mem_map.mp hb
    exact ⟨Path.segments_ne_nil f.name, h.scalar f hf⟩
  have hempty : (Entries.keys ([] : Entries Value)).Nodup := List.nodup_nil
  have hgrow := Value.grown_grow hlocated h.apart hempty (by simp) (by simp [Value.entryBranches])
  rw [h.tree_eq]
  simpa [Value.entryBranches] using hgrow

theorem Placed.paths_tree (h : Placed fields) :
    (Value.paths (.map (tree fields))).Perm (paths fields) := by
  obtain ⟨-, -, hperm⟩ := h.tree_grown
  simpa [Value.paths, Value.branches, located, paths, Function.comp_def] using hperm.map (·.1)

theorem Placed.exists_listed (h : Placed fields) (hne : fields ≠ []) :
    ∃ w, Value.Listed (.map (tree fields)) w := by
  obtain ⟨hn, hes, hperm⟩ := h.tree_grown
  have hpaths := h.paths_tree
  have hgrown : Value.Grown (.map (tree fields)) := by
    refine .map (fun hnil => ?_) hn hes
    rw [hnil, Value.entryBranches] at hperm
    exact hne (List.map_eq_nil_iff.mp hperm.symm.eq_nil)
  apply hgrown.exists_listed
  · intro p hp k hk
    obtain ⟨f, hf, rfl⟩ := List.mem_map.mp (hpaths.mem_iff.mp hp)
    obtain ⟨hempty, hline⟩ := h.segment f hf k hk
    exact ⟨⟨hempty, Path.not_mem_of_mem_segments hk⟩, hline⟩
  · intro path hlist
    rw [Path.isListing_of_perm hpaths] at hlist
    obtain ⟨n, hcount⟩ := h.numbered path hlist
    have hle : n ≤ fields.length := by
      simpa [paths] using Path.le_length_of_next hcount
    rw [Path.next_of_perm hpaths]
    exact ⟨n, hle.trans_lt h.size, hcount⟩

/-- Nested and flattened again, fields are what they were exactly if no list stands in a list. -/
theorem flatten_nest_iff (h : Placed fields) : ∃ es, nest fields = .ok (.map es) ∧
    ((Value.flatten es "").Perm (fields.map fun f => (f.name, f.value)) ↔
      ¬ ListInList (paths fields)) := by
  by_cases hne : fields = []
  · subst hne
    refine ⟨[], rfl, iff_of_true (.refl _) ?_⟩
    rintro ⟨_, _, -, ⟨p, hp, -⟩, -⟩
    cases hp
  obtain ⟨w, hw⟩ := h.exists_listed hne
  obtain ⟨-, -, hperm⟩ := h.tree_grown
  have hpaths := h.paths_tree
  have hlist : w.isList = false := by
    rw [Bool.eq_false_iff]
    intro htrue
    have hroot := hw.isList_iff.mp htrue
    rw [Path.isListing_of_perm hpaths] at hroot
    exact h.top hroot
  obtain ⟨es, rfl⟩ := Value.exists_map_of_listify hw.listify_eq hlist
  have hnested := hw.nested_iff
  have hback := hw.perm
  rw [Path.listInList_of_perm hpaths] at hnested hback
  simp only [Value.branches] at hnested hback
  refine ⟨es, hw.listify_eq, ?_⟩
  rw [Value.flatten_eq hw.addressable]
  constructor
  · intro hsame hinner
    obtain ⟨b, hb, hleaf⟩ := hnested.mpr hinner
    obtain ⟨f, hf, heq⟩ := List.mem_map.mp (hsame.mem_iff.mp (List.mem_map_of_mem hb))
    have hvalue : f.value = b.2 := congrArg Prod.snd heq
    have hscalar := (h.scalar f hf).isList_eq
    rw [hvalue, hleaf] at hscalar
    cases hscalar
  · intro hnone
    have hnames := ((hback hnone).trans hperm).map fun b => (Path.ofSegments b.1, b.2)
    simpa [located, Function.comp_def, Path.ofSegments_segments] using hnames

example : Value.flatten [("a", .list [.list [.text "x", .text "y"]])] "" =
    [("a.1", .list [.text "x", .text "y"])] := rfl

/-- Two hosts whose fields come in no order, and a field beside them. -/
def cluster : List Field :=
  [{ name := "hosts.2.name", value := .text "b", checked := some true },
    { name := "strict", value := .bool true, checked := some true },
    { name := "hosts.1.port", value := .int 80, checked := some true },
    { name := "hosts.1.name", value := .text "a", checked := some true }]

theorem cluster_flatten_nest : Placed cluster ∧ ∃ es, nest cluster = .ok (.map es) ∧
    (Value.flatten es "").Perm (cluster.map fun f => (f.name, f.value)) := by
  have hfinite : ∀ p ∈ paths cluster, ∀ path ∈ p.inits,
      IsListing (paths cluster) path → path = ["hosts"] := by decide
  have hlisting : ∀ path, IsListing (paths cluster) path → path = ["hosts"] := by
    intro path hlist
    obtain ⟨s, p, hp, hstart⟩ := hlist.1
    have hinit := (List.mem_inits path p).mpr ((List.prefix_append path [s]).trans hstart)
    exact hfinite p hp path hinit hlist
  have hcount : ∀ s, Next (paths cluster) ["hosts"] s ↔ IsCount 2 s := by
    intro s
    constructor
    · intro hs
      have hnexts : Path.nexts (paths cluster) ["hosts"] = ["2", "1", "1"] := by decide
      rw [← Path.mem_nexts, hnexts] at hs
      obtain rfl | rfl : s = "2" ∨ s = "1" := by simpa using hs
      · exact ⟨2, by omega, by omega, rfl⟩
      · exact ⟨1, by omega, by omega, rfl⟩
    · rintro ⟨i, hlow, hhigh, rfl⟩
      obtain rfl | rfl : i = 1 ∨ i = 2 := by omega
      · decide
      · decide
  have hplaced : Placed cluster := by
    constructor
    · decide
    · decide
    · decide
    · decide
    · decide
    · intro path hlist
      rw [hlisting path hlist]
      exact ⟨2, hcount⟩
    · decide
    · exact Numeral.lt_pow_maxDigits (by decide)
  have hnone : ¬ ListInList (paths cluster) := by
    rintro ⟨path, s, hlist, -, hinner⟩
    have hlong := hlisting _ hinner
    rw [hlisting path hlist] at hlong
    simp at hlong
  obtain ⟨es, hnest, hsame⟩ := flatten_nest_iff hplaced
  exact ⟨hplaced, es, hnest, hsame.mpr hnone⟩

end Field

end FieldRules
