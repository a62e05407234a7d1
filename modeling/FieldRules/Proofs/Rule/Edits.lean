import FieldRules.Proofs.Json.Number
import FieldRules.Proofs.Value.ListText

/-! Targets that add items to a list or take them out, enforced one after another. Whether an item
is there at the end is up to the last target that names it. No text stands twice if none did before,
and the items that no target names stay in place. -/
namespace FieldRules

namespace Value

variable {xs ys : List Value} {v : Value} {item s : String} {texts : List String}
  {textual : Bool}

@[simp] theorem shown_text (s : String) : (text s).shown = s :=
  rfl

theorem mapM_display_eq_ok : xs.mapM display = .ok texts ↔
    (∀ x ∈ xs, x.Showable) ∧ xs.map shown = texts := by
  constructor
  · intro h
    have hshow : ∀ x ∈ xs, x.Showable := by
      have hall := Fault.forall₂_of_mapM h
      clear h
      induction hall with
      | nil => simp
      | @cons x s xs texts hx _ ih => exact List.forall_mem_cons.mpr ⟨⟨s, hx⟩, ih⟩
    rw [Fault.mapM_eq_ok fun x hx => display_eq_ok (hshow x hx)] at h
    exact ⟨hshow, Except.ok.inj h⟩
  · rintro ⟨hshow, rfl⟩
    exact Fault.mapM_eq_ok fun x hx => display_eq_ok (hshow x hx)

theorem mem_shown_adjoin :
    s ∈ (adjoin xs item).map shown ↔ s = item ∨ s ∈ xs.map shown := by
  unfold adjoin
  split_ifs with h
  · have hmem : item ∈ xs.map shown := by simpa using h
    exact ⟨.inr, fun hs => hs.elim (fun heq => heq ▸ hmem) id⟩
  · simp [or_comm]

theorem mem_shown_discard :
    s ∈ (discard xs item).map shown ↔ s ≠ item ∧ s ∈ xs.map shown := by
  unfold discard
  simp only [List.mem_map, List.mem_filter, bne_iff_ne]
  constructor
  · rintro ⟨x, ⟨hx, hne⟩, rfl⟩
    exact ⟨hne, x, hx, rfl⟩
  · rintro ⟨hne, x, hx, rfl⟩
    exact ⟨x, ⟨hx, hne⟩, rfl⟩

theorem nodup_shown_adjoin (h : (xs.map shown).Nodup) (item : String) :
    ((adjoin xs item).map shown).Nodup := by
  unfold adjoin
  split_ifs with hitem
  · exact h
  · have hnot : item ∉ xs.map shown := by simpa using hitem
    rw [List.map_append, List.nodup_append]
    refine ⟨h, List.nodup_singleton _, fun s hs t ht => ?_⟩
    have ht : t = item := List.mem_singleton.mp ht
    exact fun heq => hnot (ht ▸ heq ▸ hs)

theorem nodup_shown_discard (h : (xs.map shown).Nodup) (item : String) :
    ((discard xs item).map shown).Nodup :=
  h.sublist (List.filter_sublist.map shown)

section

-- a choice of items that leaves the one out that is added or taken out
variable {p : Value → Bool} (hp : ∀ x, x.shown = item → p x = false)

include hp

theorem filter_adjoin : (adjoin xs item).filter p = xs.filter p := by
  unfold adjoin
  split_ifs
  · rfl
  · simp [hp (.text item) rfl]

theorem filter_discard : (discard xs item).filter p = xs.filter p := by
  unfold discard
  rw [List.filter_filter]
  refine List.filter_congr fun x _ => ?_
  by_cases hx : x.shown = item
  · simp [hp x hx]
  · simp [hx]

end

theorem showable_adjoin (h : ∀ x ∈ xs, x.Showable) (item : String) :
    ∀ x ∈ adjoin xs item, x.Showable := by
  unfold adjoin
  split_ifs
  · exact h
  · intro x hx
    rcases List.mem_append.mp hx with hx | hx
    · exact h x hx
    · rw [List.mem_singleton.mp hx]
      exact ⟨item, rfl⟩

/-- A value has these items: as a list, or as a text that is read as one. -/
inductive Lists (xs : List Value) : (textual : Bool) → Value → Prop
  | list : Lists xs false (.list xs)
  | text {s : String} (h : Json.decodeList s = some xs) : Lists xs true (.text s)

theorem Lists.exists_addItem (h : Lists xs textual v) (hxs : ∀ x ∈ xs, x.Showable)
    (item : String) : ∃ w, v.addItem item = .ok w ∧ Lists (adjoin xs item) textual w := by
  cases h with
  | list => exact ⟨_, addItem_list hxs item, .list⟩
  | text hs =>
    obtain ⟨t, ht, hread, -⟩ := exists_addItem_listText hs (Json.durable_decodeList hs) item
    exact ⟨_, ht, .text hread⟩

theorem Lists.exists_removeItem? (h : Lists xs textual v) (hxs : ∀ x ∈ xs, x.Showable)
    (item : String) : ∃ w, v.removeItem? item = .ok (some (w, !(discard xs item).isEmpty)) ∧
      Lists (discard xs item) textual w := by
  cases h with
  | list => exact ⟨_, removeItem?_list hxs item, .list⟩
  | text hs =>
    obtain ⟨t, ht, hwritten⟩ := exists_removeItem?_listText hs (Json.durable_decodeList hs) item
    exact ⟨_, ht, .text hwritten.decode⟩

end Value

namespace Clause

variable {xs : List Value} {t : Clause} {targets : List Clause} {f : Field} {s : String}
  {textual : Bool}

/-- The target adds an item or takes one out. -/
def Edits (t : Clause) : Prop :=
  ∃ item, item ≠ "" ∧ t.demand = .contains item

/-- The items of a list after a target. -/
def edit (xs : List Value) (t : Clause) : List Value :=
  match t.demand with
  | .contains item => if t.negated then Value.discard xs item else Value.adjoin xs item
  | _ => xs

/-- The last target that names an item, if any does. -/
def lastNaming? (targets : List Clause) (item : String) : Option Clause :=
  (targets.filter (·.demand = .contains item)).getLast?

/-- Whether no target names the text that a value shows as. -/
def spares (targets : List Clause) (x : Value) : Bool :=
  targets.all (·.demand != .contains x.shown)

theorem exists_enforceOn_edit (ht : t.Edits) (hf : Value.Lists xs textual f.value)
    (hxs : ∀ x ∈ xs, x.Showable) : ∃ g, t.enforceOn f = .ok g ∧
      Value.Lists (edit xs t) textual g.value ∧ ∀ x ∈ edit xs t, x.Showable := by
  obtain ⟨name, demand, negated⟩ := t
  obtain ⟨item, hitem, rfl⟩ := ht
  simp only [enforceOn, Field.enforce, if_neg hitem, edit]
  cases negated with
  | false =>
    obtain ⟨w, hw, hlists⟩ := hf.exists_addItem hxs item
    simp only [Field.add, hw]
    exact ⟨_, rfl, hlists, Value.showable_adjoin hxs item⟩
  | true =>
    obtain ⟨w, hw, hlists⟩ := hf.exists_removeItem? hxs item
    have hrest : ∀ x ∈ Value.discard xs item, x.Showable :=
      fun x hx => hxs x (List.mem_filter.mp hx).1
    simp only [Field.remove, hw]
    cases (Value.discard xs item).isEmpty with
    | false => exact ⟨_, rfl, hlists, hrest⟩
    | true => exact ⟨_, rfl, hlists, hrest⟩

/-- A list stays a list and a text one that is read as a list, whatever is added and taken out. -/
theorem exists_foldlM_edit (ht : ∀ t ∈ targets, t.Edits) (hf : Value.Lists xs textual f.value)
    (hxs : ∀ x ∈ xs, x.Showable) : ∃ g, targets.foldlM (fun f t => t.enforceOn f) f = .ok g ∧
      Value.Lists (targets.foldl edit xs) textual g.value ∧
        ∀ x ∈ targets.foldl edit xs, x.Showable := by
  induction targets generalizing f xs with
  | nil => exact ⟨f, rfl, hf, hxs⟩
  | cons t targets ih =>
    obtain ⟨ht, htargets⟩ := List.forall_mem_cons.mp ht
    obtain ⟨g, hg, hlists, hshow⟩ := exists_enforceOn_edit ht hf hxs
    rw [List.foldlM_cons, hg]
    exact ih htargets hlists hshow

theorem nodup_shown_edit (h : (xs.map Value.shown).Nodup) (t : Clause) :
    ((edit xs t).map Value.shown).Nodup := by
  unfold edit
  split
  · split_ifs
    · exact Value.nodup_shown_discard h _
    · exact Value.nodup_shown_adjoin h _
  · exact h

theorem nodup_shown_foldl_edit (h : (xs.map Value.shown).Nodup) (targets : List Clause) :
    ((targets.foldl edit xs).map Value.shown).Nodup := by
  induction targets generalizing xs with
  | nil => exact h
  | cons t targets ih => exact ih (nodup_shown_edit h t)

theorem mem_shown_edit (t : Clause) : s ∈ (edit xs t).map Value.shown ↔
    if t.demand = .contains s then t.negated = false else s ∈ xs.map Value.shown := by
  unfold edit
  split
  · rename_i item hitem
    rw [hitem]
    cases t.negated with
    | false =>
      rw [if_neg Bool.false_ne_true, Value.mem_shown_adjoin]
      by_cases hs : item = s
      · simp [hs]
      · simp [hs, Ne.symm hs]
    | true =>
      rw [if_pos rfl, Value.mem_shown_discard]
      by_cases hs : item = s
      · simp [hs]
      · simp [hs, Ne.symm hs]
  · rename_i hne
    rw [if_neg (hne s)]

theorem lastNaming?_cons (t : Clause) (targets : List Clause) (item : String) :
    lastNaming? (t :: targets) item =
      (lastNaming? targets item).or (if t.demand = .contains item then some t else none) := by
  unfold lastNaming?
  by_cases h : t.demand = .contains item
  · rw [List.filter_cons_of_pos (by simpa using h), List.getLast?_cons, if_pos h]
    cases (targets.filter (·.demand = .contains item)).getLast? <;> rfl
  · rw [List.filter_cons_of_neg (by simpa using h), if_neg h, Option.or_none]

/-- The last target that names an item decides whether it is there. -/
theorem mem_shown_foldl_edit (targets : List Clause) (xs : List Value) (s : String) :
    s ∈ (targets.foldl edit xs).map Value.shown ↔
      (lastNaming? targets s).elim (s ∈ xs.map Value.shown) (·.negated = false) := by
  induction targets generalizing xs with
  | nil => rfl
  | cons t targets ih =>
    rw [List.foldl_cons, ih, mem_shown_edit, lastNaming?_cons]
    cases lastNaming? targets s with
    | some u => rfl
    | none =>
      by_cases ht : t.demand = .contains s
      · simp [ht]
      · simp [ht]

theorem filter_spares_edit {p : Value → Bool}
    (hp : ∀ x, t.demand = .contains x.shown → p x = false) :
    (edit xs t).filter p = xs.filter p := by
  unfold edit
  split
  · rename_i item hitem
    have hp : ∀ x : Value, x.shown = item → p x = false := fun x hx => hp x (by rw [hitem, hx])
    split_ifs
    · exact Value.filter_discard hp
    · exact Value.filter_adjoin hp
  · rfl

theorem filter_spares_foldl_edit {p : Value → Bool}
    (hp : ∀ t ∈ targets, ∀ x, t.demand = .contains x.shown → p x = false) :
    (targets.foldl edit xs).filter p = xs.filter p := by
  induction targets generalizing xs with
  | nil => rfl
  | cons t targets ih =>
    obtain ⟨ht, htargets⟩ := List.forall_mem_cons.mp hp
    rw [List.foldl_cons, ih htargets, filter_spares_edit ht]

/-- Targets that add and take out items of a list, or of a text that is read as a list, leave one of
the same kind. No text stands twice in it, an item is there if the last target that names it adds
it or none names it and it was there, and the items that are not named keep their order. -/
theorem exists_foldlM_enforceOn {texts : List String} (hf : Value.Lists xs textual f.value)
    (htexts : xs.mapM Value.display = .ok texts) (hn : texts.Nodup)
    (ht : ∀ t ∈ targets, t.Edits) :
    ∃ g ys texts', targets.foldlM (fun f t => t.enforceOn f) f = .ok g ∧
      Value.Lists ys textual g.value ∧ ys.mapM Value.display = .ok texts' ∧ texts'.Nodup ∧
      (∀ s, s ∈ texts' ↔ (lastNaming? targets s).elim (s ∈ texts) (·.negated = false)) ∧
      ys.filter (spares targets) = xs.filter (spares targets) := by
  obtain ⟨hxs, rfl⟩ := Value.mapM_display_eq_ok.mp htexts
  obtain ⟨g, hg, hlists, hshow⟩ := exists_foldlM_edit ht hf hxs
  refine ⟨g, _, _, hg, hlists, Value.mapM_display_eq_ok.mpr ⟨hshow, rfl⟩,
    nodup_shown_foldl_edit hn targets, mem_shown_foldl_edit targets xs, ?_⟩
  refine filter_spares_foldl_edit fun t ht x hx => ?_
  have hnamed : ¬ spares targets x = true := by
    intro hspares
    exact bne_iff_ne.mp (List.all_eq_true.mp hspares t ht) hx
  simpa using hnamed

/-- Brings in an item, takes one out, and brings that one in again. -/
def reshuffle : List Clause :=
  [⟨"memo", .contains "c", false⟩, ⟨"memo", .contains "a", true⟩, ⟨"memo", .contains "a", false⟩]

theorem reshuffle_enforceOn : ∃ g ys texts, reshuffle.foldlM (fun f t => t.enforceOn f)
      { name := "memo", value := .text "[\"a\",\"b\"]" } = .ok g ∧
    Value.Lists ys true g.value ∧ ys.mapM Value.display = .ok texts ∧ texts.Nodup ∧
    (∀ s, s ∈ texts ↔
      (lastNaming? reshuffle s).elim (s ∈ ["a", "b"]) (·.negated = false)) ∧
    ys.filter (spares reshuffle) = [.text "b"] := by
  have hlists : Value.Lists [.text "a", .text "b"] true (.text "[\"a\",\"b\"]") :=
    .text (by decide +kernel)
  have hshown : [Value.text "a", .text "b"].mapM Value.display = .ok ["a", "b"] := rfl
  have hedits : ∀ t ∈ reshuffle, t.Edits := by simp [reshuffle, Edits]
  obtain ⟨g, ys, texts, hg, hys, htexts, hn, hmem, hspared⟩ := exists_foldlM_enforceOn
    (f := { name := "memo", value := .text "[\"a\",\"b\"]" }) hlists hshown (by decide) hedits
  refine ⟨g, ys, texts, hg, hys, htexts, hn, hmem, hspared.trans ?_⟩
  simp [spares, reshuffle]

end Clause

end FieldRules
