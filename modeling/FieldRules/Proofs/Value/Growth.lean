import FieldRules.Proofs.Value.Branches
import FieldRules.Value.Nest

/-! Mappings that grow from their leaves. Leaves that come entry by entry grow into the mapping that
they were taken from, and leaves of which none stands in the way of another are all kept, in
whatever order they come. -/
namespace FieldRules.Value

variable {es front : Entries Value} {v : Value} {key : String} {path : List String}

/-- Values put one after another at the ends of their paths. -/
def grow (es : Entries Value) (bs : List (List String × Value)) : Entries Value :=
  bs.foldl (fun es b => putAt b.1 b.2 es) es

theorem grow_append (es : Entries Value) (bs cs : List (List String × Value)) :
    grow es (bs ++ cs) = grow (grow es bs) cs :=
  List.foldl_append

theorem putAt_cons (h : path ≠ []) (key : String) (v : Value) (es : Entries Value) :
    putAt (key :: path) v es =
      Entries.insert es key (.map (putAt path v (entriesOf (Entries.get? es key)))) := by
  cases path with
  | nil => exact absurd rfl h
  | cons next path =>
    rw [putAt]
    exact List.cons_ne_nil next path

theorem grow_along (h : key ∉ Entries.keys front) (sub : Entries Value)
    {bs : List (List String × Value)} (hbs : ∀ b ∈ bs, b.1 ≠ []) :
    grow (front ++ [(key, .map sub)]) (bs.map (along key)) =
      front ++ [(key, .map (grow sub bs))] := by
  induction bs generalizing sub with
  | nil => rfl
  | cons b bs ih =>
    obtain ⟨hb, hbs⟩ := List.forall_mem_cons.mp hbs
    have hput : putAt (key :: b.1) b.2 (front ++ [(key, .map sub)]) =
        front ++ [(key, .map (putAt b.1 b.2 sub))] := by
      rw [putAt_cons hb, Entries.get?_append_of_not_mem h, Entries.insert_append_of_not_mem h]
      simp [entriesOf, Entries.insert]
    rw [List.map_cons, grow, List.foldl_cons, along, hput]
    exact ih _ hbs

/-- Leaves that begin with a new key grow from it. -/
theorem grow_along_new (h : key ∉ Entries.keys front) {bs : List (List String × Value)}
    (hne : bs ≠ []) (hbs : ∀ b ∈ bs, b.1 ≠ []) :
    grow front (bs.map (along key)) = front ++ [(key, .map (grow [] bs))] := by
  obtain ⟨b, rest, rfl⟩ := List.exists_cons_of_ne_nil hne
  obtain ⟨hb, hrest⟩ := List.forall_mem_cons.mp hbs
  have hput : putAt (key :: b.1) b.2 front = front ++ [(key, .map (putAt b.1 b.2 []))] := by
    rw [putAt_cons hb, Entries.get?_eq_none h, Entries.insert_of_not_mem h]
    rfl
  rw [List.map_cons, grow, List.foldl_cons, along, hput]
  exact grow_along h _ hrest

/-- Entries grow one after another, if the leaves of each grow into it. -/
theorem grow_of_forall (hn : (Entries.keys (front ++ es)).Nodup)
    (h : ∀ e ∈ es, ∀ front key, key ∉ Entries.keys front →
      grow front ((branches e.2).map (along key)) = front ++ [(key, e.2)]) :
    grow front (entryBranches es) = front ++ es := by
  induction es generalizing front with
  | nil => simp [grow, entryBranches]
  | cons e es ih =>
    obtain ⟨he, hes⟩ := List.forall_mem_cons.mp h
    have hfresh : e.1 ∉ Entries.keys front := by
      rw [Entries.keys, List.map_append, List.nodup_append] at hn
      exact fun hmem => hn.2.2 e.1 hmem e.1 List.mem_cons_self rfl
    have hn' : (Entries.keys (front ++ [e] ++ es)).Nodup := by simpa [Entries.keys] using hn
    rw [entryBranches, grow_append, he front e.1 hfresh, ih hn' hes, List.append_assoc]
    rfl

/-- A tree of mappings: none of them is empty or has a key twice, and every leaf is scalar. -/
inductive Grown : Value → Prop
  | scalar {v : Value} (h : v.IsScalar) : Grown v
  | map {es : Entries Value} (hne : es ≠ []) (hn : (Entries.keys es).Nodup)
      (h : ∀ e ∈ es, Grown e.2) : Grown (.map es)

theorem grown_map_iff : Grown (.map es) ↔
    es ≠ [] ∧ (Entries.keys es).Nodup ∧ ∀ e ∈ es, Grown e.2 := by
  constructor
  · intro h
    cases h with
    | scalar h => cases h
    | map hne hn h => exact ⟨hne, hn, h⟩
  · exact fun ⟨hne, hn, h⟩ => .map hne hn h

theorem Grown.branches_ne_nil (h : v.Grown) : branches v ≠ [] := by
  induction h with
  | scalar h => simp [h.branches_eq]
  | @map es hne hn h ih =>
    obtain ⟨e, rest, rfl⟩ := List.exists_cons_of_ne_nil hne
    have he : branches e.2 ≠ [] := ih e List.mem_cons_self
    simp [branches, entryBranches, he]

theorem entryBranches_append (es fs : Entries Value) :
    entryBranches (es ++ fs) = entryBranches es ++ entryBranches fs := by
  simp [entryBranches_eq]

/-- Below a new key, the leaves of a tree grow into it again. -/
theorem Grown.grow_branches (h : v.Grown) : ∀ (front : Entries Value) (key : String),
    key ∉ Entries.keys front → grow front ((branches v).map (along key)) = front ++ [(key, v)] := by
  induction h with
  | @scalar v h =>
    intro front key hkey
    rw [h.branches_eq]
    exact Entries.insert_of_not_mem hkey v
  | @map es hne hn h ih =>
    intro front key hkey
    have hbranches := (Grown.map hne hn h).branches_ne_nil
    have hgrow : grow [] (entryBranches es) = [] ++ es := grow_of_forall hn ih
    rw [branches] at hbranches ⊢
    rw [grow_along_new hkey hbranches fun b hb => ne_nil_of_mem_entryBranches hb, hgrow,
      List.nil_append]

theorem Grown.grow_entryBranches (h : Grown (.map es)) : grow [] (entryBranches es) = es := by
  obtain ⟨-, hn, hes⟩ := grown_map_iff.mp h
  have hgrow : grow [] (entryBranches es) = [] ++ es :=
    grow_of_forall hn fun e he => (hes e he).grow_branches
  exact hgrow

/-- Neither of two paths goes on from the other. -/
def Apart (p q : List String) : Prop :=
  ¬ p <+: q ∧ ¬ q <+: p

theorem apart_cons {key : String} {p q : List String} : Apart (key :: p) (key :: q) ↔ Apart p q := by
  unfold Apart
  rw [List.cons_prefix_cons, List.cons_prefix_cons]
  simp

theorem not_apart_nil (p : List String) : ¬ Apart p [] :=
  fun h => h.2 List.nil_prefix

theorem exists_map_of_apart (hv : v.Grown) (h : ∀ b ∈ branches v, Apart b.1 path) :
    ∃ es, v = .map es := by
  cases hv with
  | scalar hv =>
    have hroot : Apart [] path := h ([], v) (by simp [hv.branches_eq])
    exact absurd List.nil_prefix hroot.1
  | @map es => exact ⟨es, rfl⟩

theorem Grown.insert (hn : (Entries.keys es).Nodup) (hes : ∀ e ∈ es, Grown e.2) (hv : v.Grown)
    (key : String) : Grown (.map (Entries.insert es key v)) := by
  refine .map ?_ (Entries.nodup_keys_insert hn) (Entries.forall_insert hes hv)
  have hmem : key ∈ Entries.keys (Entries.insert es key v) := by
    rw [Entries.keys_insert]
    split
    · assumption
    · exact List.mem_append_right _ List.mem_cons_self
  exact List.ne_nil_of_mem (List.mem_map.mp hmem).choose_spec.1

/-- The leaves of the value under a key. -/
def branchesAt (es : Entries Value) (key : String) : List (List String × Value) :=
  match Entries.get? es key with
  | some v => branches v
  | none => []

/-- Putting a value under a key changes the leaves that begin with it, and no others. -/
theorem exists_rest (es : Entries Value) (key : String) : ∃ rest,
    (entryBranches es).Perm ((branchesAt es key).map (along key) ++ rest) ∧
      ∀ w, (entryBranches (Entries.insert es key w)).Perm ((branches w).map (along key) ++ rest) := by
  unfold branchesAt
  cases hget : Entries.get? es key with
  | none =>
    have hkey : key ∉ Entries.keys es := by
      intro hmem
      have hcontains := Entries.contains_iff.mpr hmem
      simp [Entries.contains, hget] at hcontains
    refine ⟨entryBranches es, .refl _, fun w => ?_⟩
    rw [Entries.insert_of_not_mem hkey, entryBranches_append, entryBranches, entryBranches,
      List.append_nil]
    exact List.perm_append_comm
  | some old =>
    obtain ⟨front, back, rfl, hfresh⟩ := Entries.exists_cut hget
    have hcut : ∀ w, (entryBranches (front ++ (key, w) :: back)).Perm
        ((branches w).map (along key) ++ (entryBranches front ++ entryBranches back)) := by
      intro w
      rw [entryBranches_append, entryBranches]
      exact List.perm_append_comm_assoc _ _ _
    refine ⟨entryBranches front ++ entryBranches back, hcut old, fun w => ?_⟩
    have hinsert : Entries.insert (front ++ (key, old) :: back) key w =
        front ++ (key, w) :: back := by
      rw [Entries.insert_append_of_not_mem hfresh]
      simp [Entries.insert]
    rw [hinsert]
    exact hcut w

/-- A value that is put where no leaf stands in the way is one more leaf. -/
theorem grown_putAt {x : Value} (hx : x.IsScalar) (hpath : path ≠ [])
    (hn : (Entries.keys es).Nodup) (hes : ∀ e ∈ es, Grown e.2)
    (hfree : ∀ b ∈ entryBranches es, Apart b.1 path) :
    Grown (.map (putAt path x es)) ∧
      (entryBranches (putAt path x es)).Perm ((path, x) :: entryBranches es) := by
  induction path generalizing es with
  | nil => exact absurd rfl hpath
  | cons key path ih =>
    obtain ⟨rest, hbefore, hafter⟩ := exists_rest es key
    have hunder : ∀ b ∈ branchesAt es key, Apart b.1 path := by
      intro b hb
      have hmem : along key b ∈ entryBranches es :=
        hbefore.mem_iff.mpr (List.mem_append_left _ (List.mem_map_of_mem hb))
      exact apart_cons.mp (hfree _ hmem)
    -- what comes under the key has the leaves that were there, and the new one
    have hput : ∃ w, Grown w ∧ (branches w).Perm ((path, x) :: branchesAt es key) ∧
        putAt (key :: path) x es = Entries.insert es key w := by
      unfold branchesAt at hunder ⊢
      cases hget : Entries.get? es key with
      | none =>
        cases path with
        | nil => exact ⟨x, .scalar hx, by rw [hx.branches_eq], rfl⟩
        | cons next path =>
          have hempty : (Entries.keys ([] : Entries Value)).Nodup := List.nodup_nil
          obtain ⟨hgrown, hperm⟩ := ih (List.cons_ne_nil _ _) hempty (by simp)
            (by simp [entryBranches])
          refine ⟨_, hgrown, hperm, ?_⟩
          rw [putAt_cons (List.cons_ne_nil _ _), hget]
          rfl
      | some old =>
        rw [hget] at hunder
        have hgrown := hes _ (Entries.mem_of_get? hget)
        obtain ⟨sub, rfl⟩ := exists_map_of_apart hgrown hunder
        have hpath : path ≠ [] := by
          rintro rfl
          obtain ⟨b, hb⟩ := List.exists_mem_of_ne_nil _ hgrown.branches_ne_nil
          exact not_apart_nil _ (hunder b hb)
        obtain ⟨-, hsub, hall⟩ := grown_map_iff.mp hgrown
        obtain ⟨hgrown', hperm⟩ := ih hpath hsub hall hunder
        refine ⟨_, hgrown', hperm, ?_⟩
        rw [putAt_cons hpath, hget]
        rfl
    obtain ⟨w, hw, hperm, hput⟩ := hput
    rw [hput]
    refine ⟨hw.insert hn hes key, (hafter w).trans ?_⟩
    have hleaves := (hperm.map (along key)).append_right rest
    rw [List.map_cons, List.cons_append] at hleaves
    exact hleaves.trans (hbefore.symm.cons _)

/-- Scalars that are put at paths of which none goes on from another are all leaves there are. -/
theorem grown_grow {bs : List (List String × Value)} (hbs : ∀ b ∈ bs, b.1 ≠ [] ∧ b.2.IsScalar)
    (hapart : bs.Pairwise fun b c => Apart b.1 c.1) (hn : (Entries.keys es).Nodup)
    (hes : ∀ e ∈ es, Grown e.2) (hfree : ∀ b ∈ entryBranches es, ∀ c ∈ bs, Apart b.1 c.1) :
    (Entries.keys (grow es bs)).Nodup ∧ (∀ e ∈ grow es bs, Grown e.2) ∧
      (entryBranches (grow es bs)).Perm (bs ++ entryBranches es) := by
  induction bs generalizing es with
  | nil => exact ⟨hn, hes, .refl _⟩
  | cons b bs ih =>
    obtain ⟨hb, hbs⟩ := List.forall_mem_cons.mp hbs
    obtain ⟨hfirst, hapart⟩ := List.pairwise_cons.mp hapart
    obtain ⟨hgrown, hperm⟩ := grown_putAt hb.2 hb.1 hn hes fun c hc => hfree c hc b (by simp)
    obtain ⟨-, hn, hes⟩ := grown_map_iff.mp hgrown
    have hfree' : ∀ c ∈ entryBranches (putAt b.1 b.2 es), ∀ d ∈ bs, Apart c.1 d.1 := by
      intro c hc d hd
      rcases List.mem_cons.mp (hperm.mem_iff.mp hc) with rfl | hc
      · exact hfirst d hd
      · exact hfree c hc d (List.mem_cons_of_mem _ hd)
    obtain ⟨hn', hes', hperm'⟩ := ih hbs hapart hn hes hfree'
    refine ⟨hn', hes', hperm'.trans ?_⟩
    exact (hperm.append_left bs).trans List.perm_middle

end FieldRules.Value
