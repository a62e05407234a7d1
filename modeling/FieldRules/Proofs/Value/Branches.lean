import FieldRules.Proofs.Entries
import FieldRules.Proofs.Value.Positions
import FieldRules.Value.Flatten

/-! The leaves of a nested value with the keys that lead to them. Flattening writes one entry for
each of them, under the name that these keys make. -/
namespace FieldRules.Value

variable {es : Entries Value} {v : Value}

/-- A leaf with one more key before those that lead to it. -/
def along (key : String) (b : List String × Value) : List String × Value :=
  (key :: b.1, b.2)

mutual

/-- The leaves of a value with the keys that lead to each. An item of a list is found by its
position, and a list in a list is a leaf. -/
def branches : Value → List (List String × Value)
  | .list xs => itemBranches 1 xs
  | .map es => entryBranches es
  | v => [([], v)]

/-- The leaves of the values of all entries. -/
def entryBranches : List (String × Value) → List (List String × Value)
  | [] => []
  | (k, v) :: es => (branches v).map (along k) ++ entryBranches es

/-- The leaves of the items of a list, from a position on. -/
def itemBranches : ℕ → List Value → List (List String × Value)
  | _, [] => []
  | n, .list ys :: xs => ([toString n], .list ys) :: itemBranches (n + 1) xs
  | n, x :: xs => (branches x).map (along (toString n)) ++ itemBranches (n + 1) xs

end

/-- Whether a value is a list. -/
def isList : Value → Bool
  | .list _ => true
  | _ => false

/-- The leaves of an item of a list, of which a list is one. -/
def twigs (x : Value) : List (List String × Value) :=
  if x.isList then [([], x)] else branches x

theorem eq_list_of_isList (h : v.isList = true) : ∃ xs, v = .list xs := by
  cases v with
  | list xs => exact ⟨xs, rfl⟩
  | null | bool _ | int _ | double _ | text _ | map _ => cases h

theorem itemLeaves_cons {x : Value} (hx : x.isList = false) (path : String) (n : ℕ)
    (xs : List Value) : itemLeaves path n (x :: xs) =
      leaves (path ++ "." ++ toString n) x ++ itemLeaves path (n + 1) xs := by
  cases x with
  | list ys => cases hx
  | map es => rfl
  | null | bool _ | int _ | double _ | text _ => rfl

theorem itemBranches_cons (n : ℕ) (x : Value) (xs : List Value) :
    itemBranches n (x :: xs) = (twigs x).map (along (toString n)) ++ itemBranches (n + 1) xs := by
  cases x with
  | list ys => rfl
  | null | bool _ | int _ | double _ | text _ | map _ => rfl

theorem append_dot_ne_empty (path key : String) : path ++ "." ++ key ≠ "" := by
  intro h
  have hlist := congrArg String.toList h
  rw [String.toList_append, String.toList_append] at hlist
  simp at hlist

mutual

theorem leaves_eq : ∀ (v : Value) {path : String}, path ≠ "" →
    leaves path v = (branches v).map fun b => (Path.below path b.1, b.2)
  | .null, _, _ => rfl
  | .bool _, _, _ => rfl
  | .int _, _, _ => rfl
  | .double _, _, _ => rfl
  | .text _, _, _ => rfl
  | .list xs, _, _ => by rw [leaves, branches, itemLeaves_eq 1 xs]
  | .map es, _, h => by rw [leaves, branches, startUnder, if_neg h, entryLeaves_eq es]

theorem entryLeaves_eq : ∀ (es : List (String × Value)) {path : String},
    entryLeaves (path ++ ".") es = (entryBranches es).map fun b => (Path.below path b.1, b.2)
  | [], _ => rfl
  | (k, v) :: es, path => by
    rw [entryLeaves, entryBranches, leaves_eq v (append_dot_ne_empty path k), entryLeaves_eq es,
      List.map_append, List.map_map]
    rfl

theorem itemLeaves_eq : ∀ (n : ℕ) (xs : List Value) {path : String},
    itemLeaves path n xs = (itemBranches n xs).map fun b => (Path.below path b.1, b.2)
  | _, [], _ => rfl
  | n, x :: xs, path => by
    cases hx : x.isList with
    | true =>
      obtain ⟨ys, rfl⟩ := eq_list_of_isList hx
      rw [itemLeaves, itemBranches_cons, itemLeaves_eq (n + 1) xs, List.map_append]
      · rfl
      · simp
    | false =>
      have htwigs : twigs x = branches x := by simp [twigs, hx]
      rw [itemLeaves_cons hx, itemBranches_cons, htwigs,
        leaves_eq x (append_dot_ne_empty path (toString n)), itemLeaves_eq (n + 1) xs,
        List.map_append, List.map_map]
      rfl

end

theorem entryBranches_eq (es : Entries Value) :
    entryBranches es = es.flatMap fun e => (branches e.2).map (along e.1) := by
  induction es with
  | nil => rfl
  | cons e es ih => rw [entryBranches, ih, List.flatMap_cons]

theorem itemBranches_eq (n : ℕ) (xs : List Value) :
    itemBranches n xs = (Entries.numbered n xs).flatMap fun e => (twigs e.2).map (along e.1) := by
  induction xs generalizing n with
  | nil => rfl
  | cons x xs ih => rw [itemBranches_cons, ih, Entries.numbered, List.flatMap_cons]

theorem mem_entryBranches {b : List String × Value} :
    b ∈ entryBranches es ↔ ∃ e ∈ es, ∃ c ∈ branches e.2, along e.1 c = b := by
  rw [entryBranches_eq, List.mem_flatMap]
  simp only [List.mem_map]

theorem mem_itemBranches {n : ℕ} {xs : List Value} {b : List String × Value} :
    b ∈ itemBranches n xs ↔
      ∃ e ∈ Entries.numbered n xs, ∃ c ∈ twigs e.2, along e.1 c = b := by
  rw [itemBranches_eq, List.mem_flatMap]
  simp only [List.mem_map]

theorem ne_nil_of_mem_entryBranches {b : List String × Value} (h : b ∈ entryBranches es) :
    b.1 ≠ [] := by
  obtain ⟨e, -, c, -, rfl⟩ := mem_entryBranches.mp h
  exact List.cons_ne_nil _ _

/-- A text, a truth value or an integer. -/
def IsScalar : Value → Prop
  | .text _ | .bool _ | .int _ => True
  | _ => False

instance (v : Value) : Decidable v.IsScalar :=
  match v with
  | .text _ | .bool _ | .int _ => .isTrue trivial
  | .null | .double _ | .list _ | .map _ => .isFalse id

theorem IsScalar.branches_eq (h : v.IsScalar) : branches v = [([], v)] := by
  cases v with
  | text _ | bool _ | int _ => rfl
  | null | double _ | list _ | map _ => cases h

/-- Every key in a value can be a segment of a name, and no mapping has one twice. -/
inductive Addressable : Value → Prop
  | scalar {v : Value} (h : v.IsScalar) : Addressable v
  | list {xs : List Value} (h : ∀ x ∈ xs, Addressable x) : Addressable (.list xs)
  | map {es : Entries Value} (hn : (Entries.keys es).Nodup)
      (hk : ∀ k ∈ Entries.keys es, Path.IsSegment k) (h : ∀ e ∈ es, Addressable e.2) :
      Addressable (.map es)

theorem Addressable.isSegment (h : v.Addressable) :
    ∀ b ∈ branches v, ∀ k ∈ b.1, Path.IsSegment k := by
  induction h with
  | scalar h => simp [h.branches_eq]
  | @list xs h ih =>
    intro b hb k hk
    obtain ⟨e, he, c, hc, rfl⟩ := mem_itemBranches.mp hb
    rcases List.mem_cons.mp hk with rfl | hk
    · obtain ⟨i, -, hi⟩ := Entries.exists_position_of_mem_numbered he
      rw [hi]
      exact Path.isSegment_toString i
    · unfold twigs at hc
      split at hc
      · simp_all
      · exact ih e.2 (Entries.mem_of_mem_numbered he) c hc k hk
  | @map es hn hkeys h ih =>
    intro b hb k hk
    obtain ⟨e, he, c, hc, rfl⟩ := mem_entryBranches.mp hb
    rcases List.mem_cons.mp hk with rfl | hk
    · exact hkeys e.1 (List.mem_map_of_mem he)
    · exact ih e he c hc k hk

theorem nodup_flatMap_along {f : Value → List (List String × Value)}
    (hn : (Entries.keys es).Nodup) (h : ∀ e ∈ es, ((f e.2).map (·.1)).Nodup) :
    ((es.flatMap fun e => (f e.2).map (along e.1)).map (·.1)).Nodup := by
  induction es with
  | nil => exact List.nodup_nil
  | cons e es ih =>
    obtain ⟨hfresh, hn⟩ := List.nodup_cons.mp hn
    obtain ⟨he, hes⟩ := List.forall_mem_cons.mp h
    rw [List.flatMap_cons, List.map_append, List.nodup_append]
    refine ⟨?_, ih hn hes, ?_⟩
    · have hmap : ((f e.2).map (along e.1)).map (·.1) = ((f e.2).map (·.1)).map (e.1 :: ·) := by
        simp [along, Function.comp_def]
      rw [hmap]
      exact he.map List.cons_injective
    · -- the keys of a leaf begin with that of its entry
      rintro p hp q hq rfl
      obtain ⟨b, hb, rfl⟩ := List.mem_map.mp hp
      obtain ⟨c, -, rfl⟩ := List.mem_map.mp hb
      obtain ⟨b', hb', heq⟩ := List.mem_map.mp hq
      obtain ⟨e', he', hb'⟩ := List.mem_flatMap.mp hb'
      obtain ⟨c', -, rfl⟩ := List.mem_map.mp hb'
      have hkey : e'.1 = e.1 := (List.cons.inj heq).1
      have hmem : e'.1 ∈ Entries.keys es := List.mem_map_of_mem he'
      rw [hkey] at hmem
      exact hfresh hmem

theorem Addressable.nodup_branches (h : v.Addressable) : ((branches v).map (·.1)).Nodup := by
  induction h with
  | scalar h => simp [h.branches_eq]
  | @list xs h ih =>
    rw [branches, itemBranches_eq]
    refine nodup_flatMap_along (Entries.nodup_keys_numbered 1 xs) fun e he => ?_
    unfold twigs
    split
    · exact List.nodup_singleton _
    · exact ih e.2 (Entries.mem_of_mem_numbered he)
  | @map es hn hk h ih =>
    rw [branches, entryBranches_eq]
    exact nodup_flatMap_along hn ih

theorem entryLeaves_empty (hk : ∀ k ∈ Entries.keys es, k ≠ "") :
    entryLeaves "" es = (entryBranches es).map fun b => (Path.ofSegments b.1, b.2) := by
  induction es with
  | nil => rfl
  | cons e es ih =>
    obtain ⟨he, hes⟩ := List.forall_mem_cons.mp hk
    have hleaves : leaves e.1 e.2 =
        ((branches e.2).map (along e.1)).map fun b => (Path.ofSegments b.1, b.2) := by
      rw [leaves_eq e.2 he, List.map_map]
      refine List.map_congr_left fun b _ => ?_
      rw [Function.comp_apply, along, Path.ofSegments_eq_below]
    rw [entryLeaves, entryBranches, String.empty_append, ih hes, hleaves, List.map_append]

/-- A flattened mapping has an entry for every leaf, and these stand under different names. -/
theorem flatten_eq (h : Addressable (.map es)) :
    flatten es "" = (entryBranches es).map fun b => (Path.ofSegments b.1, b.2) := by
  have hsegments := h.isSegment
  have hnodup := h.nodup_branches
  cases h with
  | scalar h => cases h
  | map hn hk h =>
    rw [branches] at hsegments hnodup
    rw [flatten, startUnder, if_pos rfl, entryLeaves_empty fun k hkey => (hk k hkey).1]
    refine Entries.ofPairs_eq ?_
    have hkeys : Entries.keys ((entryBranches es).map fun b => (Path.ofSegments b.1, b.2)) =
        ((entryBranches es).map (·.1)).map Path.ofSegments := by
      simp [Entries.keys, Function.comp_def]
    rw [hkeys]
    refine hnodup.map_on ?_
    intro p hp q hq hpq
    have hread : ∀ p ∈ (entryBranches es).map (·.1), Path.segments (Path.ofSegments p) = p := by
      intro p hp
      obtain ⟨b, hb, rfl⟩ := List.mem_map.mp hp
      exact Path.segments_ofSegments (ne_nil_of_mem_entryBranches hb)
        fun k hk => (hsegments b hb k hk).2
    rw [← hread p hp, hpq, hread q hq]

end FieldRules.Value
