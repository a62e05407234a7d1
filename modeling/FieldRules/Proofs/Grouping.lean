import FieldRules.Grouping
import Mathlib.Data.List.Nodup
import Mathlib.Data.Set.Card
import Mathlib.Data.Sym.Sym2

/-! Lists in groups and in pairs. The pairs inside the groups of a key are the pairs of items that
have one key, and a list without repeats has every pair of its items once. -/
namespace FieldRules.Grouping

variable {α β κ : Type} [DecidableEq κ] {key : α → κ} {xs : List α}

theorem mem_eraseDups_map {k : κ} : k ∈ (xs.map key).eraseDups ↔ ∃ x ∈ xs, key x = k := by
  rw [List.mem_eraseDups, List.mem_map]

theorem groups_eq (key : α → κ) (xs : List α) :
    groups key xs = (xs.map key).eraseDups.map fun k => (k, xs.filter fun x => key x = k) := by
  have hgroup : ∀ k, ((xs.map fun x => (key x, x)).filter fun e => e.1 = k).map (·.2) =
      xs.filter fun x => key x = k := by
    intro k
    rw [List.filter_map, List.map_map]
    exact List.map_id _
  unfold groups
  simp only [hgroup, List.map_map]
  rfl

theorem mem_groups {k : κ} {group : List α} : (k, group) ∈ groups key xs ↔
    (∃ x ∈ xs, key x = k) ∧ group = xs.filter fun x => key x = k := by
  rw [groups_eq, List.mem_map]
  constructor
  · rintro ⟨k', hk, heq⟩
    cases heq
    exact ⟨mem_eraseDups_map.mp hk, rfl⟩
  · rintro ⟨hk, rfl⟩
    exact ⟨k, mem_eraseDups_map.mpr hk, rfl⟩

theorem mem_of_mem_pairs {x y : α} (h : (x, y) ∈ pairs xs) : x ∈ xs ∧ y ∈ xs := by
  induction xs with
  | nil => cases h
  | cons z xs ih =>
    rcases List.mem_append.mp h with h | h
    · obtain ⟨y', hy', heq⟩ := List.mem_map.mp h
      cases heq
      exact ⟨List.mem_cons_self, List.mem_cons_of_mem _ hy'⟩
    · obtain ⟨hx, hy⟩ := ih h
      exact ⟨List.mem_cons_of_mem _ hx, List.mem_cons_of_mem _ hy⟩

/-- Of two items of a list, one comes first. -/
theorem mem_pairs_or {x y : α} (hx : x ∈ xs) (hy : y ∈ xs) :
    x = y ∨ (x, y) ∈ pairs xs ∨ (y, x) ∈ pairs xs := by
  induction xs with
  | nil => cases hx
  | cons z xs ih =>
    simp only [pairs, List.mem_append, List.mem_map, Prod.mk.injEq]
    rcases List.mem_cons.mp hx with rfl | hx' <;> rcases List.mem_cons.mp hy with rfl | hy'
    · exact .inl rfl
    · exact .inr (.inl (.inl ⟨y, hy', rfl, rfl⟩))
    · exact .inr (.inr (.inl ⟨x, hx', rfl, rfl⟩))
    · rcases ih hx' hy' with heq | h | h
      · exact .inl heq
      · exact .inr (.inl (.inr h))
      · exact .inr (.inr (.inr h))

theorem pairs_map (f : α → β) (xs : List α) : pairs (xs.map f) = (pairs xs).map (Prod.map f f) := by
  induction xs with
  | nil => rfl
  | cons x xs ih => simp [pairs, ih]

theorem pairs_filter (p : α → Bool) (xs : List α) :
    pairs (xs.filter p) = (pairs xs).filter fun e => p e.1 && p e.2 := by
  induction xs with
  | nil => rfl
  | cons x xs ih =>
    rw [pairs, List.filter_append, ← ih, List.filter_map]
    cases hx : p x with
    | true => rw [List.filter_cons_of_pos hx, pairs]; simp [Function.comp_def, hx]
    | false => rw [List.filter_cons_of_neg (by simp [hx])]; simp [Function.comp_def, hx]

/-- A list without repeats has every pair of two items in one order only. -/
theorem nodup_map_mk_pairs (h : xs.Nodup) : ((pairs xs).map fun e => s(e.1, e.2)).Nodup := by
  induction xs with
  | nil => exact List.nodup_nil
  | cons x xs ih =>
    obtain ⟨hx, hxs⟩ := List.nodup_cons.mp h
    rw [pairs, List.map_append, List.map_map]
    refine List.nodup_append'.mpr ⟨hxs.map fun y z hyz => Sym2.congr_right.mp hyz, ih hxs, ?_⟩
    intro z hz hz'
    obtain ⟨y, -, rfl⟩ := List.mem_map.mp hz
    obtain ⟨⟨a, b⟩, hab, heq⟩ := List.mem_map.mp hz'
    have hmem : x ∈ s(a, b) := by
      have hleft : x ∈ s(x, y) := Sym2.mem_mk_left x y
      exact heq ▸ hleft
    obtain ⟨ha, hb⟩ := mem_of_mem_pairs hab
    rcases Sym2.mem_iff.mp hmem with rfl | rfl
    · exact hx ha
    · exact hx hb

/-- Where items are told apart by what a function makes of them, the pairs that a test finds are the
unordered pairs of a symmetric relation, each once. -/
theorem coe_countP_pairs [DecidableEq β] {f : α → β} {R : β → β → Prop} {p : α × α → Bool}
    (hnodup : (xs.map f).Nodup) (hsymm : ∀ {a b}, R a b → R b a) (hne : ∀ {a b}, R a b → a ≠ b)
    (hp : ∀ x ∈ xs, ∀ y ∈ xs, p (x, y) = true ↔ R (f x) (f y))
    (hmem : ∀ a b, R a b → ∃ x ∈ xs, f x = a) :
    ((pairs xs).countP p : ℕ∞) = {z : Sym2 β | ∃ a b, a ≠ b ∧ R a b ∧ s(a, b) = z}.encard := by
  let found := ((pairs xs).filter p).map fun e => s(f e.1, f e.2)
  have hfound : found.Nodup := by
    have hall := nodup_map_mk_pairs hnodup
    rw [pairs_map, List.map_map] at hall
    exact hall.sublist (List.filter_sublist.map _)
  have hset : {z | ∃ a b, a ≠ b ∧ R a b ∧ s(a, b) = z} = (found.toFinset : Set _) := by
    rw [List.coe_toFinset]
    refine Set.ext fun z => ⟨?_, fun hz => ?_⟩
    · rintro ⟨a, b, hab, hR, rfl⟩
      obtain ⟨x, hx, rfl⟩ := hmem a b hR
      obtain ⟨y, hy, rfl⟩ := hmem b (f x) (hsymm hR)
      rcases mem_pairs_or hx hy with rfl | hxy | hyx
      · exact absurd rfl hab
      · exact List.mem_map.mpr ⟨_, List.mem_filter.mpr ⟨hxy, (hp x hx y hy).mpr hR⟩, rfl⟩
      · rw [Sym2.eq_swap]
        exact List.mem_map.mpr ⟨_, List.mem_filter.mpr ⟨hyx, (hp y hy x hx).mpr (hsymm hR)⟩, rfl⟩
    · obtain ⟨⟨x, y⟩, hxy, rfl⟩ := List.mem_map.mp hz
      obtain ⟨hxy, htest⟩ := List.mem_filter.mp hxy
      obtain ⟨hx, hy⟩ := mem_of_mem_pairs hxy
      have hR := (hp x hx y hy).mp htest
      exact ⟨_, _, hne hR, hR, rfl⟩
  rw [hset, Set.encard_coe_eq_coe_finsetCard, List.toFinset_card_of_nodup hfound, List.length_map,
    List.countP_eq_length_filter]

theorem nodup_eraseDups (ks : List κ) : ks.eraseDups.Nodup := by
  induction hn : ks.length using Nat.strongRecOn generalizing ks with
  | ind n ih =>
    cases ks with
    | nil => exact List.nodup_nil
    | cons k ks =>
      rw [List.eraseDups_cons]
      have hlen : (ks.filter fun x => !x == k).length < n := by
        have := List.length_filter_le (fun x => !x == k) ks
        rw [← hn, List.length_cons]
        omega
      refine List.nodup_cons.mpr ⟨fun hk => ?_, ih _ hlen _ rfl⟩
      have hfilter := List.mem_filter.mp (List.mem_eraseDups.mp hk)
      simp at hfilter

/-- What is counted for each of some keys is counted once for all of them. -/
theorem sum_map_countP {ks : List κ} (hks : ks.Nodup) (f : α → κ) (p : α → Bool) (xs : List α) :
    (ks.map fun k => xs.countP fun x => f x = k && p x).sum =
      xs.countP fun x => f x ∈ ks && p x := by
  induction ks with
  | nil => simp
  | cons k ks ih =>
    obtain ⟨hk, hks⟩ := List.nodup_cons.mp hks
    rw [List.map_cons, List.sum_cons, ih hks,
      List.countP_eq_countP_filter_add xs (fun x => f x ∈ k :: ks && p x) fun x => f x = k,
      List.countP_filter, List.countP_filter]
    congr 1 <;> refine List.countP_congr fun x _ => ?_
    · simp +contextual [and_comm]
    · by_cases hx : f x = k
      · simp [hx, hk]
      · simp [hx]

/-- The pairs that are counted among the items of each key are those whose items have one key. -/
theorem sum_countP_pairs_filter {ks : List κ} (hks : ks.Nodup) (hkeys : ∀ x ∈ xs, key x ∈ ks)
    (p : α × α → Bool) :
    (ks.map fun k => (pairs (xs.filter fun x => key x = k)).countP p).sum =
      (pairs xs).countP fun e => key e.1 = key e.2 && p e := by
  have hfilter : ∀ k, (pairs (xs.filter fun x => key x = k)).countP p =
      (pairs xs).countP fun e => key e.1 = k && (key e.1 = key e.2 && p e) := by
    intro k
    rw [pairs_filter, List.countP_filter]
    refine List.countP_congr fun e _ => ?_
    simp only [Bool.and_eq_true, decide_eq_true_eq]
    constructor
    · rintro ⟨hp, rfl, hkey⟩
      exact ⟨rfl, hkey.symm, hp⟩
    · rintro ⟨rfl, hkey, hp⟩
      exact ⟨hp, rfl, hkey.symm⟩
  simp only [hfilter]
  rw [sum_map_countP hks]
  refine List.countP_congr fun e he => ?_
  simp [hkeys _ (mem_of_mem_pairs he).1]

theorem sum_countP_groups (key : α → κ) (p : α × α → Bool) (xs : List α) :
    ((groups key xs).map fun g => (pairs g.2).countP p).sum =
      (pairs xs).countP fun e => key e.1 = key e.2 && p e := by
  rw [groups_eq, List.map_map]
  refine sum_countP_pairs_filter (nodup_eraseDups _) (fun x hx => ?_) p
  exact mem_eraseDups_map.mpr ⟨x, hx, rfl⟩

end FieldRules.Grouping
