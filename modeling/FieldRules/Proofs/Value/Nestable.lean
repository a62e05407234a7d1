import FieldRules.Proofs.Value.Growth

/-! Nested values that survive flattening. From the entries of the flat mapping, taken as checked
fields, nesting makes the same value again: the leaves grow into mappings, and those that stand for
lists have all their keys in order. -/
namespace FieldRules

namespace Field

/-- A checked field for each entry. -/
def ofEntries (es : Entries Value) : List Field :=
  es.map fun e => { name := e.1, value := e.2, checked := some true }

theorem tree_ofEntries (es : Entries Value) :
    tree (ofEntries es) = Value.grow [] (es.map fun e => (Path.segments e.1, e.2)) := by
  have hchecked : (ofEntries es).filter isChecked = ofEntries es := by
    rw [List.filter_eq_self]
    intro f hf
    obtain ⟨e, -, rfl⟩ := List.mem_map.mp hf
    rfl
  rw [tree, hchecked, ofEntries, Value.grow, List.foldl_map, List.foldl_map]

end Field

namespace Value

variable {es : Entries Value} {v : Value}

mutual

/-- A value with the mapping of its items by their positions in place of every list. -/
def spread : Value → Value
  | .list xs => .map (spreadItems 1 xs)
  | .map es => .map (spreadEntries es)
  | v => v

/-- The same for the values of all entries. -/
def spreadEntries : List (String × Value) → List (String × Value)
  | [] => []
  | (k, v) :: es => (k, spread v) :: spreadEntries es

/-- The same for the items of a list, from a position on. -/
def spreadItems : ℕ → List Value → List (String × Value)
  | _, [] => []
  | n, x :: xs => (toString n, spread x) :: spreadItems (n + 1) xs

end

/-- A value whose parts are all found again: every mapping has keys that can be segments of a name
and one that is no position, and the items of a list are no lists and not too many to number. -/
inductive Nestable : Value → Prop
  | scalar {v : Value} (h : v.IsScalar) : Nestable v
  | list {xs : List Value} (hne : xs ≠ []) (hsize : xs.length < Nat.pow 10 Numeral.maxDigits)
      (hflat : ∀ x ∈ xs, x.isList = false) (h : ∀ x ∈ xs, Nestable x) : Nestable (.list xs)
  | map {es : Entries Value} (hn : (Entries.keys es).Nodup)
      (hkey : ∀ k ∈ Entries.keys es, Path.IsSegment k ∧ '\n' ∉ k.toList)
      (hword : ∃ k ∈ Entries.keys es, ¬ Path.IsPosition k) (h : ∀ e ∈ es, Nestable e.2) :
      Nestable (.map es)

theorem Nestable.addressable (h : v.Nestable) : v.Addressable := by
  induction h with
  | scalar h => exact .scalar h
  | list hne hsize hflat h ih => exact .list ih
  | map hn hkey hword h ih => exact .map hn (fun k hk => (hkey k hk).1) ih

theorem spreadEntries_eq (es : Entries Value) :
    spreadEntries es = es.map fun e => (e.1, spread e.2) := by
  induction es with
  | nil => rfl
  | cons e es ih => rw [spreadEntries, ih, List.map_cons]

theorem spreadItems_eq (n : ℕ) (xs : List Value) :
    spreadItems n xs = (Entries.numbered n xs).map fun e => (e.1, spread e.2) := by
  induction xs generalizing n with
  | nil => rfl
  | cons x xs ih => rw [spreadItems, ih, Entries.numbered, List.map_cons]

theorem IsScalar.spread_eq (h : v.IsScalar) : spread v = v := by
  cases v with
  | text _ | bool _ | int _ => rfl
  | null | double _ | list _ | map _ => cases h

theorem IsScalar.isList_eq (h : v.IsScalar) : v.isList = false := by
  cases v with
  | text _ | bool _ | int _ => rfl
  | null | double _ | list _ | map _ => cases h

theorem IsScalar.listify_eq (h : v.IsScalar) : listify v = .ok v := by
  cases v with
  | text _ | bool _ | int _ => rfl
  | null | double _ | list _ | map _ => cases h

theorem listifyEntries_eq_ok {f g : String × Value → Value}
    (h : ∀ e ∈ es, listify (f e) = .ok (g e)) :
    listifyEntries (es.map fun e => (e.1, f e)) = .ok (es.map fun e => (e.1, g e)) := by
  induction es with
  | nil => rfl
  | cons e es ih =>
    obtain ⟨he, hes⟩ := List.forall_mem_cons.mp h
    rw [List.map_cons, listifyEntries, he, ih hes]
    rfl

/-- A list that was spread out is put together again. -/
theorem Nestable.listify_spread (h : v.Nestable) : listify (spread v) = .ok v := by
  induction h with
  | scalar h => rw [h.spread_eq, h.listify_eq]
  | @list xs hne hsize hflat h ih =>
    have hitems : listifyEntries (spreadItems 1 xs) = .ok (Entries.numbered 1 xs) := by
      rw [spreadItems_eq, listifyEntries_eq_ok (g := (·.2)) fun e he =>
        ih e.2 (Entries.mem_of_mem_numbered he)]
      simp
    rw [spread, listify, hitems]
    exact ofEntries_numbered hne hsize (.refl _)
  | @map es hn hkey hword h ih =>
    have hentries : listifyEntries (spreadEntries es) = .ok es := by
      rw [spreadEntries_eq, listifyEntries_eq_ok (g := (·.2)) ih]
      simp
    obtain ⟨k, hk, hposition⟩ := hword
    obtain ⟨e, he, rfl⟩ := List.mem_map.mp hk
    have hnone : positionDigits? e.1 = none := by
      rw [positionDigits?_eq (hkey e.1 hk).1.1 (hkey e.1 hk).2, if_neg hposition]
    rw [spread, listify, hentries]
    exact ofEntries_of_not_position he hnone

theorem Nestable.grown_spread (h : v.Nestable) : (spread v).Grown := by
  induction h with
  | scalar h =>
    rw [h.spread_eq]
    exact .scalar h
  | @list xs hne hsize hflat h ih =>
    have hkeys : Entries.keys (spreadItems 1 xs) = Entries.keys (Entries.numbered 1 xs) := by
      rw [spreadItems_eq, Entries.keys_map]
    rw [spread]
    refine .map ?_ (hkeys ▸ Entries.nodup_keys_numbered 1 xs) ?_
    · obtain ⟨x, rest, rfl⟩ := List.exists_cons_of_ne_nil hne
      simp [spreadItems]
    · intro e he
      rw [spreadItems_eq] at he
      obtain ⟨d, hd, rfl⟩ := List.mem_map.mp he
      exact ih d.2 (Entries.mem_of_mem_numbered hd)
  | @map es hn hkey hword h ih =>
    have hkeys : Entries.keys (spreadEntries es) = Entries.keys es := by
      rw [spreadEntries_eq, Entries.keys_map]
    obtain ⟨k, hk, -⟩ := hword
    rw [spread]
    refine .map ?_ (hkeys ▸ hn) ?_
    · rintro hnil
      rw [← hkeys, hnil] at hk
      cases hk
    · intro e he
      rw [spreadEntries_eq] at he
      obtain ⟨d, hd, rfl⟩ := List.mem_map.mp he
      exact ih d hd

/-- Spreading lists out keeps the leaves and the keys that lead to them. -/
theorem Nestable.branches_spread (h : v.Nestable) : branches (spread v) = branches v := by
  induction h with
  | scalar h => rw [h.spread_eq]
  | @list xs hne hsize hflat h ih =>
    rw [spread, branches, branches, entryBranches_eq, itemBranches_eq, spreadItems_eq,
      List.flatMap_map]
    refine List.flatMap_congr fun e he => ?_
    have hx := Entries.mem_of_mem_numbered he
    simp [twigs, hflat e.2 hx, ih e.2 hx]
  | @map es hn hkey hword h ih =>
    rw [spread, branches, branches, entryBranches_eq, entryBranches_eq, spreadEntries_eq,
      List.flatMap_map]
    refine List.flatMap_congr fun e he => ?_
    simp [ih e he]

/-- Flattened and nested again, a mapping is what it was. -/
theorem nest_flatten (h : Nestable (.map es)) :
    Field.nest (Field.ofEntries (flatten es "")) = .ok (.map es) := by
  have hsegments := h.addressable.isSegment
  rw [branches] at hsegments
  have hread : (flatten es "").map (fun e => (Path.segments e.1, e.2)) = entryBranches es := by
    rw [flatten_eq h.addressable, List.map_map]
    refine (List.map_congr_left fun b hb => ?_).trans (List.map_id _)
    have hb' := Path.segments_ofSegments (ne_nil_of_mem_entryBranches hb)
      fun k hk => (hsegments b hb k hk).2
    rw [Function.comp_apply, hb', id]
  have hgrow : grow [] (entryBranches es) = spreadEntries es := by
    have hbranches := h.branches_spread
    have hgrown := h.grown_spread
    rw [spread] at hbranches hgrown
    rw [branches, branches] at hbranches
    rw [← hbranches, hgrown.grow_entryBranches]
  have hlistify := h.listify_spread
  rw [spread] at hlistify
  rw [Field.nest, Field.tree_ofEntries, hread, hgrow, hlistify]

/-- Eleven trees in rows, and beside them a list whose name is a position. -/
def orchard : Entries Value :=
  [("rows", .list ((List.range 11).map fun i => .map [("tree", .text "plum"), ("1", .int i)])),
    ("7", .list [.text "a.b", .bool true])]

theorem orchard_nest_flatten : Nestable (.map orchard) ∧
    Field.nest (Field.ofEntries (flatten orchard "")) = .ok (.map orchard) := by
  have htree (i : ℤ) : Nestable (.map [("tree", .text "plum"), ("1", .int i)]) := by
    have hkeys : Entries.keys [("tree", text "plum"), ("1", int i)] = ["tree", "1"] := rfl
    refine .map ?_ ?_ ?_ ?_
    · rw [hkeys]
      decide
    · rw [hkeys]
      decide
    · rw [hkeys]
      exact ⟨"tree", by decide, by decide⟩
    · intro e he
      rcases List.mem_pair.mp he with rfl | rfl
      · exact .scalar trivial
      · exact .scalar trivial
  have hrows : Nestable (.list ((List.range 11).map fun i =>
      .map [("tree", .text "plum"), ("1", .int i)])) := by
    refine .list (by decide) (Numeral.lt_pow_maxDigits (by decide)) ?_ ?_
    · intro x hx
      obtain ⟨i, -, rfl⟩ := List.mem_map.mp hx
      rfl
    · intro x hx
      obtain ⟨i, -, rfl⟩ := List.mem_map.mp hx
      exact htree i
  have hpair : Nestable (.list [.text "a.b", .bool true]) := by
    refine .list (by decide) (Numeral.lt_pow_maxDigits (by decide)) ?_ ?_
    · intro x hx
      rcases List.mem_pair.mp hx with rfl | rfl
      · rfl
      · rfl
    · intro x hx
      rcases List.mem_pair.mp hx with rfl | rfl
      · exact .scalar trivial
      · exact .scalar trivial
  have h : Nestable (.map orchard) := by
    refine .map (by decide) (by decide) ⟨"rows", by decide, by decide⟩ fun e he => ?_
    rcases List.mem_pair.mp he with rfl | rfl
    · exact hrows
    · exact hpair
  exact ⟨h, nest_flatten h⟩

end Value

end FieldRules
