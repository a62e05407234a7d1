import FieldRules.Proofs.Value.Nestable
import Mathlib.Tactic.Choose

/-! Lists in place of mappings by position, in a tree of mappings in which positions are counted from
one. The leaves stay what they are, and only a list that stands in a list hides its own. -/
namespace FieldRules

namespace Path

variable {paths : List (List String)} {path : List String} {s : String}

/-- A segment comes next after a path. -/
def Next (paths : List (List String)) (path : List String) (s : String) : Prop :=
  ∃ p ∈ paths, path ++ [s] <+: p

/-- Something comes after a path, and only positions. -/
def IsListing (paths : List (List String)) (path : List String) : Prop :=
  (∃ s, Next paths path s) ∧ ∀ s, Next paths path s → IsPosition s

/-- Positions come next after a path, and positions next after one of these. -/
def ListInList (paths : List (List String)) : Prop :=
  ∃ path s, IsListing paths path ∧ Next paths path s ∧ IsListing paths (path ++ [s])

/-- The segments that come next after a path, as often as there are paths that go on with them. -/
def nexts (paths : List (List String)) (path : List String) : List String :=
  paths.filterMap fun p => if path <+: p then p[path.length]? else none

theorem mem_nexts : s ∈ nexts paths path ↔ Next paths path s := by
  unfold nexts Next
  rw [List.mem_filterMap]
  refine exists_congr fun p => and_congr_right fun _ => ?_
  by_cases hp : path <+: p
  · obtain ⟨rest, rfl⟩ := hp
    cases rest with
    | nil =>
      have hlong : ¬ path ++ [s] <+: path := fun h => by simpa using h.length_le
      simp [hlong]
    | cons k rest => simp [eq_comm]
  · have hlong : ¬ path ++ [s] <+: p := fun h => hp ((List.prefix_append path [s]).trans h)
    simp [hp, hlong]

instance : Decidable (Next paths path s) :=
  decidable_of_iff _ mem_nexts

instance : Decidable (IsListing paths path) :=
  decidable_of_iff ((∃ s ∈ nexts paths path, True) ∧ ∀ s ∈ nexts paths path, IsPosition s) <| by
    simp [IsListing, mem_nexts]

/-- Positions are not counted further than there are paths. -/
theorem le_length_of_next {n : ℕ} (h : ∀ s, Next paths path s ↔ IsCount n s) :
    n ≤ paths.length := by
  have hsub : (List.range' 1 n).map toString ⊆ nexts paths path := by
    intro s hs
    obtain ⟨i, hi, rfl⟩ := List.mem_map.mp hs
    have hrange := List.mem_range'_1.mp hi
    rw [mem_nexts, h]
    exact ⟨i, hrange.1, by omega, rfl⟩
  have hnodup : ((List.range' 1 n).map toString).Nodup :=
    List.Nodup.map Numeral.toString_injective List.nodup_range'
  have hlength := (List.subperm_of_subset hnodup hsub).length_le
  rw [List.length_map, List.length_range'] at hlength
  exact hlength.trans (List.length_filterMap_le _ _)

end Path

namespace Value

open FieldRules.Path (Next IsListing ListInList IsCount)

variable {es : Entries Value} {v : Value} {e : String × Value} {path : List String} {s : String}

/-- The keys that lead to the leaves of a value. -/
def paths (v : Value) : List (List String) :=
  (branches v).map (·.1)

theorem mem_paths_map {p : List String} :
    p ∈ paths (.map es) ↔ ∃ e ∈ es, ∃ q ∈ paths e.2, e.1 :: q = p := by
  unfold paths
  rw [branches, List.mem_map]
  constructor
  · rintro ⟨b, hb, rfl⟩
    obtain ⟨e, he, c, hc, rfl⟩ := mem_entryBranches.mp hb
    exact ⟨e, he, c.1, List.mem_map_of_mem hc, rfl⟩
  · rintro ⟨e, he, q, hq, rfl⟩
    obtain ⟨c, hc, rfl⟩ := List.mem_map.mp hq
    exact ⟨along e.1 c, mem_entryBranches.mpr ⟨e, he, c, hc, rfl⟩, rfl⟩

theorem next_cons (hn : (Entries.keys es).Nodup) (he : e ∈ es) :
    Next (paths (.map es)) (e.1 :: path) s ↔ Next (paths e.2) path s := by
  constructor
  · rintro ⟨p, hp, hstart⟩
    obtain ⟨d, hd, q, hq, rfl⟩ := mem_paths_map.mp hp
    rw [List.cons_append, List.cons_prefix_cons] at hstart
    have hde : e = d := List.inj_on_of_nodup_map hn he hd hstart.1
    subst hde
    exact ⟨q, hq, hstart.2⟩
  · rintro ⟨q, hq, hstart⟩
    refine ⟨e.1 :: q, mem_paths_map.mpr ⟨e, he, q, hq, rfl⟩, ?_⟩
    rw [List.cons_append, List.cons_prefix_cons]
    exact ⟨rfl, hstart⟩

theorem isListing_cons (hn : (Entries.keys es).Nodup) (he : e ∈ es) :
    IsListing (paths (.map es)) (e.1 :: path) ↔ IsListing (paths e.2) path := by
  unfold IsListing
  simp only [next_cons hn he]

theorem exists_mem_of_next {k : String} (h : Next (paths (.map es)) (k :: path) s) :
    ∃ e ∈ es, e.1 = k := by
  obtain ⟨p, hp, hstart⟩ := h
  obtain ⟨e, he, q, -, rfl⟩ := mem_paths_map.mp hp
  rw [List.cons_append, List.cons_prefix_cons] at hstart
  exact ⟨e, he, hstart.1.symm⟩

theorem next_nil (h : ∀ e ∈ es, Grown e.2) :
    Next (paths (.map es)) [] s ↔ s ∈ Entries.keys es := by
  constructor
  · rintro ⟨p, hp, hstart⟩
    obtain ⟨e, he, q, -, rfl⟩ := mem_paths_map.mp hp
    rw [List.nil_append, List.cons_prefix_cons] at hstart
    rw [hstart.1]
    exact List.mem_map_of_mem he
  · intro hs
    obtain ⟨e, he, rfl⟩ := List.mem_map.mp hs
    obtain ⟨b, hb⟩ := List.exists_mem_of_ne_nil _ (h e he).branches_ne_nil
    refine ⟨e.1 :: b.1, mem_paths_map.mpr ⟨e, he, b.1, List.mem_map_of_mem hb, rfl⟩, ?_⟩
    simp

/-- A list stands in a list in one of the values of the entries, or is one of these values. -/
theorem listInList_map (hn : (Entries.keys es).Nodup) (h : ∀ e ∈ es, Grown e.2) :
    ListInList (paths (.map es)) ↔ ∃ e ∈ es, ListInList (paths e.2) ∨
      IsListing (paths (.map es)) [] ∧ IsListing (paths e.2) [] := by
  constructor
  · rintro ⟨path, s, hlist, hs, hinner⟩
    cases path with
    | nil =>
      obtain ⟨e, he, rfl⟩ := List.mem_map.mp ((next_nil h).mp hs)
      exact ⟨e, he, .inr ⟨hlist, (isListing_cons hn he).mp hinner⟩⟩
    | cons k path =>
      obtain ⟨e, he, rfl⟩ := exists_mem_of_next hs
      refine ⟨e, he, .inl ⟨path, s, (isListing_cons hn he).mp hlist, (next_cons hn he).mp hs, ?_⟩⟩
      exact (isListing_cons hn he).mp hinner
  · rintro ⟨e, he, ⟨path, s, hlist, hs, hinner⟩ | ⟨hlist, hinner⟩⟩
    · exact ⟨e.1 :: path, s, (isListing_cons hn he).mpr hlist, (next_cons hn he).mpr hs,
        (isListing_cons hn he).mpr hinner⟩
    · exact ⟨[], e.1, hlist, (next_nil h).mpr (List.mem_map_of_mem he),
        (isListing_cons hn he).mpr hinner⟩

/-- Wherever only positions come next, they are counted from one. -/
def Numbered (ps : List (List String)) : Prop :=
  ∀ path, IsListing ps path →
    ∃ n < Nat.pow 10 Numeral.maxDigits, ∀ s, Next ps path s ↔ IsCount n s

/-- What a tree of mappings is when lists have taken the place of mappings by position. -/
structure Listed (v w : Value) : Prop where
  listify_eq : listify v = .ok w
  addressable : w.Addressable
  isList_iff : w.isList = true ↔ IsListing (paths v) []
  nested_iff : (∃ b ∈ branches w, b.2.isList = true) ↔ ListInList (paths v)
  perm : ¬ ListInList (paths v) → (branches w).Perm (branches v)

theorem IsScalar.not_next (h : v.IsScalar) : ¬ Next (paths v) path s := by
  rintro ⟨p, hp, hstart⟩
  rw [paths, h.branches_eq, List.map_singleton, List.mem_singleton] at hp
  rw [hp, List.prefix_nil] at hstart
  simp at hstart

theorem IsScalar.listed (h : v.IsScalar) : Listed v v where
  listify_eq := h.listify_eq
  addressable := .scalar h
  isList_iff := by
    rw [h.isList_eq]
    exact iff_of_false Bool.false_ne_true fun ⟨⟨_, hs⟩, _⟩ => h.not_next hs
  nested_iff := by
    rw [h.branches_eq]
    have hlist : v.isList = false := h.isList_eq
    refine iff_of_false (by simp [hlist]) ?_
    rintro ⟨_, _, -, hs, -⟩
    exact h.not_next hs
  perm := fun _ => .refl _

/-- Entries whose values are listed make a listed value, if its leaves are theirs. -/
theorem Listed.of_entries {w : Value} {g : String × Value → Value}
    {t : Value → List (List String × Value)} (hn : (Entries.keys es).Nodup)
    (hes : ∀ e ∈ es, Grown e.2) (hg : ∀ e ∈ es, Listed e.2 (g e))
    (ht : ∀ e ∈ es, t (g e) =
      if (g e).isList = true ∧ w.isList = true then [([], g e)] else branches (g e))
    (hlistify : listify (.map es) = .ok w) (haddressable : w.Addressable)
    (hlist : w.isList = true ↔ IsListing (paths (.map es)) [])
    (hbranches : (branches w).Perm (es.flatMap fun e => (t (g e)).map (along e.1))) :
    Listed (.map es) w where
  listify_eq := hlistify
  addressable := haddressable
  isList_iff := hlist
  nested_iff := by
    rw [listInList_map hn hes, ← hlist]
    have hentry : ∀ e ∈ es, (∃ c ∈ t (g e), c.2.isList = true) ↔
        ListInList (paths e.2) ∨ w.isList = true ∧ IsListing (paths e.2) [] := by
      intro e he
      rw [ht e he, ← (hg e he).nested_iff, ← (hg e he).isList_iff]
      by_cases hboth : (g e).isList = true ∧ w.isList = true
      · rw [if_pos hboth]
        simp [hboth]
      · rw [if_neg hboth]
        have hnot : ¬ (w.isList = true ∧ (g e).isList = true) := fun h => hboth h.symm
        simp [hnot]
    constructor
    · rintro ⟨b, hb, hleaf⟩
      obtain ⟨e, he, hb⟩ := List.mem_flatMap.mp (hbranches.mem_iff.mp hb)
      obtain ⟨c, hc, rfl⟩ := List.mem_map.mp hb
      exact ⟨e, he, (hentry e he).mp ⟨c, hc, hleaf⟩⟩
    · rintro ⟨e, he, h⟩
      obtain ⟨c, hc, hleaf⟩ := (hentry e he).mpr h
      refine ⟨along e.1 c, hbranches.mem_iff.mpr ?_, hleaf⟩
      exact List.mem_flatMap.mpr ⟨e, he, List.mem_map_of_mem hc⟩
  perm := by
    intro hnone
    rw [listInList_map hn hes, ← hlist] at hnone
    rw [branches, entryBranches_eq]
    refine hbranches.trans (List.Perm.flatMap_left es fun e he => ?_)
    have hboth : ¬ ((g e).isList = true ∧ w.isList = true) := fun h =>
      hnone ⟨e, he, .inr ⟨h.2, (hg e he).isList_iff.mp h.1⟩⟩
    rw [ht e he, if_neg hboth]
    exact ((hg e he).perm fun h => hnone ⟨e, he, .inl h⟩).map _

theorem Numbered.child (h : Numbered (paths (.map es))) (hn : (Entries.keys es).Nodup) (he : e ∈ es) :
    Numbered (paths e.2) := by
  intro path hlist
  obtain ⟨n, hlt, hcount⟩ := h (e.1 :: path) ((isListing_cons hn he).mpr hlist)
  exact ⟨n, hlt, fun s => (next_cons hn he).symm.trans (hcount s)⟩

theorem listifyEntries_of_listed {g : String × Value → Value} (hg : ∀ e ∈ es, Listed e.2 (g e)) :
    listifyEntries es = .ok (es.map fun e => (e.1, g e)) := by
  simpa using listifyEntries_eq_ok (f := (·.2)) fun e he => (hg e he).listify_eq

/-- Entries under counted positions become a list. -/
theorem exists_listed_list {g : String × Value → Value} (hne : es ≠ [])
    (hn : (Entries.keys es).Nodup) (hes : ∀ e ∈ es, Grown e.2)
    (hg : ∀ e ∈ es, Listed e.2 (g e)) (hnum : Numbered (paths (.map es)))
    (hlist : IsListing (paths (.map es)) []) : ∃ w, Listed (.map es) w := by
  obtain ⟨n, hlt, hcount⟩ := hnum [] hlist
  have hkeys : Entries.keys (es.map fun e => (e.1, g e)) = Entries.keys es := Entries.keys_map g
  obtain ⟨xs, hlength, hperm⟩ := Entries.exists_perm_numbered (hkeys ▸ hn) (n := n)
    (fun k => by rw [hkeys, ← next_nil hes, hcount])
  have hxs : xs ≠ [] := by
    rintro rfl
    exact hne (List.map_eq_nil_iff.mp hperm.eq_nil)
  refine ⟨.list xs, .of_entries (t := twigs) hn hes hg ?_ ?_ ?_ (iff_of_true rfl hlist) ?_⟩
  · intro e he
    have hw : (Value.list xs).isList = true := rfl
    simp [twigs, hw]
  · rw [listify, listifyEntries_of_listed hg]
    exact ofEntries_numbered hxs (hlength ▸ hlt) hperm
  · refine .list fun x hx => ?_
    rw [← Entries.values_numbered 1 xs, ← (hperm.map (·.2)).mem_iff, List.map_map] at hx
    obtain ⟨e, he, rfl⟩ := List.mem_map.mp hx
    exact (hg e he).addressable
  · rw [branches, itemBranches_eq]
    have htwigs := (hperm.flatMap_right fun e => (twigs e.2).map (along e.1)).symm
    rwa [List.flatMap_map] at htwigs

/-- Entries of which one is no position stay a mapping. -/
theorem exists_listed_map {g : String × Value → Value} (hn : (Entries.keys es).Nodup)
    (hes : ∀ e ∈ es, Grown e.2) (hg : ∀ e ∈ es, Listed e.2 (g e))
    (hkey : ∀ e ∈ es, Path.IsSegment e.1 ∧ '\n' ∉ e.1.toList) (he : e ∈ es)
    (hword : ¬ Path.IsPosition e.1) : ∃ w, Listed (.map es) w := by
  have hlist : ¬ IsListing (paths (.map es)) [] := fun h =>
    hword (h.2 e.1 ((next_nil hes).mpr (List.mem_map_of_mem he)))
  refine ⟨.map (es.map fun e => (e.1, g e)),
    .of_entries (t := branches) hn hes hg ?_ ?_ ?_ (iff_of_false Bool.false_ne_true hlist) ?_⟩
  · intro d hd
    have hw : (Value.map (es.map fun e => (e.1, g e))).isList = false := rfl
    simp [hw]
  · rw [listify, listifyEntries_of_listed hg]
    refine ofEntries_of_not_position (List.mem_map_of_mem he) ?_
    rw [positionDigits?_eq (hkey e he).1.1 (hkey e he).2, if_neg hword]
  · refine .map (by rwa [Entries.keys_map]) ?_ ?_
    · rw [Entries.keys_map]
      intro k hk
      obtain ⟨d, hd, rfl⟩ := List.mem_map.mp hk
      exact (hkey d hd).1
    · intro c hc
      obtain ⟨d, hd, rfl⟩ := List.mem_map.mp hc
      exact (hg d hd).addressable
  · rw [branches, entryBranches_eq, List.flatMap_map]

/-- Lists take the place of mappings by position in every tree in which positions are counted. -/
theorem Grown.exists_listed (h : v.Grown)
    (hkey : ∀ p ∈ paths v, ∀ k ∈ p, Path.IsSegment k ∧ '\n' ∉ k.toList)
    (hnum : Numbered (paths v)) : ∃ w, Listed v w := by
  induction h with
  | scalar h => exact ⟨_, h.listed⟩
  | @map es hne hn hes ih =>
    have hall : ∀ e ∈ es, ∃ w, Listed e.2 w := by
      intro e he
      refine ih e he (fun p hp k hk => ?_) (hnum.child hn he)
      exact hkey (e.1 :: p) (mem_paths_map.mpr ⟨e, he, p, hp, rfl⟩) k (List.mem_cons_of_mem _ hk)
    choose! g hg using hall
    by_cases hlist : IsListing (paths (.map es)) []
    · exact exists_listed_list hne hn hes hg hnum hlist
    · have hsegment : ∀ e ∈ es, Path.IsSegment e.1 ∧ '\n' ∉ e.1.toList := by
        intro e he
        obtain ⟨p, hp, hstart⟩ := (next_nil hes).mpr (List.mem_map_of_mem he)
        exact hkey p hp e.1 (hstart.subset (by simp))
      obtain ⟨e, he, hword⟩ : ∃ e ∈ es, ¬ Path.IsPosition e.1 := by
        by_contra hnone
        obtain ⟨e, he⟩ := List.exists_mem_of_ne_nil es hne
        refine hlist ⟨⟨e.1, (next_nil hes).mpr (List.mem_map_of_mem he)⟩, fun s hs => ?_⟩
        obtain ⟨d, hd, rfl⟩ := List.mem_map.mp ((next_nil hes).mp hs)
        by_contra hword
        exact hnone ⟨d, hd, hword⟩
      exact exists_listed_map hn hes hg hsegment he hword

end Value

end FieldRules
