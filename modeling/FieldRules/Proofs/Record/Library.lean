import FieldRules.Proofs.Record.Verdict
import FieldRules.Record.Library
import Mathlib.Data.List.Forall2
import Mathlib.Data.List.Nodup

/-! What is relied on in a library that reads records and dumps them. The laws say what is accepted;
how a refusal is reported is left open. -/
namespace FieldRules

/-- An item of a field's list: a text or a number. -/
def Value.IsItem : Value → Prop
  | .text _ | .int _ | .double _ => True
  | _ => False

/-- A value of one of the types that the value of a field may have. -/
def Value.OfField : Value → Prop
  | .text _ | .bool _ | .int _ | .double _ => True
  | .list xs => ∀ x ∈ xs, x.IsItem
  | _ => False

namespace Record

variable {α : Type} {c : Coercion α} {es : Entries Value} {key : String} {v : Value} {a : α}

/-- What is relied on in a library. A value that has the declared type is kept, and what is accepted
for a part has its declared type; parts are found under their keys, and dumped under them. -/
structure Library.Lawful (lib : Library) : Prop where
  text_text : ∀ s, lib.text (.text s) = .accepted s
  bool_bool : ∀ b, lib.bool (.bool b) = .accepted b
  bool_map : ∀ es b, lib.bool (.map es) ≠ .accepted b
  value_kept : ∀ {v : Value}, v.OfField → lib.value v = .accepted v
  value_typed : ∀ {v w : Value}, lib.value v = .accepted w → w.OfField
  oneOf_name : ∀ {α : Type} (cause : Cause) {name : α → String} {choices : List α},
    (choices.map name).Nodup → ∀ {a : α}, a ∈ choices →
      lib.oneOf cause name choices (.text (name a)) = .accepted a
  optional_null : ∀ {α : Type} (c : Coercion α), lib.optional c .null = .accepted none
  optional_some : ∀ {α : Type} {c : Coercion α} {v : Value} {a : α}, v ≠ .null →
    c v = .accepted a → lib.optional c v = .accepted (some a)
  list_iff : ∀ {α : Type} {c : Coercion α} {v : Value} {xs : List α},
    lib.list c v = .accepted xs ↔
      ∃ ys, v = .list ys ∧ List.Forall₂ (fun y x => c y = .accepted x) ys xs
  nonempty_of_list : ∀ {α : Type} {c : Coercion α} {v : Value} (xs : { xs : List α // xs ≠ [] }),
    lib.list c v = .accepted xs.1 → lib.nonempty c v = .accepted xs
  record_iff : ∀ {α : Type} {f : Entries Value → Verdict α} {v : Value} {a : α},
    lib.record f v = .accepted a ↔ ∃ es, v = .map es ∧ f es = .accepted a
  need_iff : ∀ {α : Type} {c : Coercion α} {es : Entries Value} {key : String} {a : α},
    lib.need es key c = .accepted a ↔ ∃ v, Entries.get? es key = some v ∧ c v = .accepted a
  part_iff : ∀ {α : Type} {c : Coercion α} {es : Entries Value} {key : String}
    {others : List String} {default a : α}, lib.part es key others default c = .accepted a ↔
      (lookUp es (key :: others) = none ∧ a = default) ∨
        ∃ v, lookUp es (key :: others) = some v ∧ c v = .accepted a
  dump_map : ∀ parts, ∃ es, lib.dump parts = .map es ∧
    ∀ key, Entries.get? es key = Entries.get? parts key

namespace Coercion

theorem isItem_of_item? {x y : Value} (h : item? x = some y) : y.IsItem := by
  cases x with
  | text _ | bool _ | int _ | double _ =>
    cases h
    trivial
  | null | list _ | map _ => cases h

theorem item?_of_isItem {x : Value} (h : x.IsItem) : item? x = some x := by
  cases x with
  | text _ | int _ | double _ => rfl
  | null | bool _ | list _ | map _ => exact h.elim

theorem isItem_of_mapM {xs ys : List Value} (h : xs.mapM item? = some ys) :
    ∀ y ∈ ys, y.IsItem := by
  induction xs generalizing ys with
  | nil =>
    cases h
    simp
  | cons x xs ih =>
    rw [List.mapM_cons] at h
    obtain ⟨y, hy, h⟩ := Option.bind_eq_some_iff.mp h
    obtain ⟨rest, hrest, h⟩ := Option.bind_eq_some_iff.mp h
    cases h
    exact List.forall_mem_cons.mpr ⟨isItem_of_item? hy, ih hrest⟩

theorem mapM_item? {xs : List Value} (h : ∀ x ∈ xs, x.IsItem) : xs.mapM item? = some xs := by
  induction xs with
  | nil => rfl
  | cons x xs ih =>
    obtain ⟨hx, hxs⟩ := List.forall_mem_cons.mp h
    rw [List.mapM_cons, item?_of_isItem hx, ih hxs]
    rfl

/-- What a field accepts for its value is of one of the types that the value may have. -/
theorem value_typed {v w : Value} (h : value v = .accepted w) : w.OfField := by
  cases v with
  | text _ | bool _ | int _ | double _ =>
    cases h
    trivial
  | list xs =>
    rw [value] at h
    cases hxs : xs.mapM item? with
    | none =>
      rw [hxs] at h
      cases h
    | some ys =>
      rw [hxs] at h
      cases h
      exact isItem_of_mapM hxs
  | null | map _ => cases h

theorem value_kept {v : Value} (h : v.OfField) : value v = .accepted v := by
  cases v with
  | text _ | bool _ | int _ | double _ => rfl
  | list xs => rw [value, mapM_item? h]
  | null | map _ => exact h.elim

theorem oneOf_name (cause : Cause) {name : α → String} {choices : List α}
    (hn : (choices.map name).Nodup) (ha : a ∈ choices) :
    oneOf cause name choices (.text (name a)) = .accepted a := by
  rw [oneOf]
  cases hfind : choices.find? fun b => name b == name a with
  | none =>
    have hmiss := List.find?_eq_none.mp hfind a ha
    simp at hmiss
  | some b =>
    have hname : name b = name a := by simpa using List.find?_some hfind
    have hb : b = a := List.inj_on_of_nodup_map hn (List.mem_of_find?_eq_some hfind) ha hname
    rw [hb]

theorem items_eq_accepted {ys : List Value} {xs : List α} :
    items c ys = .accepted xs ↔ List.Forall₂ (fun y x => c y = .accepted x) ys xs := by
  have hmap : ys.map c = xs.map .accepted ↔
      List.Forall₂ (fun y x => c y = .accepted x) ys xs := by
    rw [← List.forall₂_eq_eq_eq, List.forall₂_map_left_iff, List.forall₂_map_right_iff]
  rw [← hmap, items, Verdict.all_eq_accepted, List.ext_getElem?_iff, List.ext_getElem?_iff]
  refine forall_congr' fun i => ?_
  rw [List.getElem?_mapIdx, List.getElem?_map, List.getElem?_map]
  cases ys[i]? with
  | none => rfl
  | some y =>
    cases xs[i]? with
    | none => simp
    | some x => simp [Verdict.under_eq_accepted]

theorem list_eq_accepted {xs : List α} : list c v = .accepted xs ↔
    ∃ ys, v = .list ys ∧ List.Forall₂ (fun y x => c y = .accepted x) ys xs := by
  cases v with
  | list ys => simp [list, items_eq_accepted]
  | null | bool _ | int _ | double _ | text _ | map _ => simp [list, Verdict.refuse]

theorem nonempty_of_list (xs : { xs : List α // xs ≠ [] }) (h : list c v = .accepted xs.1) :
    nonempty c v = .accepted xs := by
  obtain ⟨ys, rfl, hys⟩ := list_eq_accepted.mp h
  cases ys with
  | nil => exact absurd (List.forall₂_nil_left_iff.mp hys) xs.2
  | cons y ys =>
    rw [nonempty, h, Verdict.andThen, dif_pos xs.2]
    intro hempty
    cases hempty

end Coercion

theorem part_eq_accepted {others : List String} {default : α} :
    part es key others default c = .accepted a ↔
      (lookUp es (key :: others) = none ∧ a = default) ∨
        ∃ v, lookUp es (key :: others) = some v ∧ c v = .accepted a := by
  unfold part
  cases lookUp es (key :: others) with
  | none => simp [eq_comm]
  | some v => simp [Verdict.under_eq_accepted]

theorem need_eq_accepted : need es key c = .accepted a ↔
    ∃ v, Entries.get? es key = some v ∧ c v = .accepted a := by
  unfold need
  cases Entries.get? es key with
  | none => simp [Verdict.refuse, Verdict.under]
  | some v => simp [Verdict.under_eq_accepted]

theorem Library.lawful_lax : lax.Lawful where
  text_text _ := rfl
  bool_bool _ := rfl
  bool_map _ _ := by simp [lax, Coercion.bool, Verdict.refuse]
  value_kept := Coercion.value_kept
  value_typed := Coercion.value_typed
  oneOf_name cause := fun hn _ ha => Coercion.oneOf_name cause hn ha
  optional_null _ := rfl
  optional_some := by
    intro α c v a hv h
    cases v with
    | null => exact absurd rfl hv
    | _ => exact Verdict.map_eq_accepted.mpr ⟨a, h, rfl⟩
  list_iff := Coercion.list_eq_accepted
  nonempty_of_list := Coercion.nonempty_of_list
  record_iff := by
    intro α f v a
    cases v with
    | map es => simp [lax, Coercion.record]
    | _ => simp [lax, Coercion.record, Verdict.refuse]
  need_iff := need_eq_accepted
  part_iff := part_eq_accepted
  dump_map parts := ⟨parts, rfl, fun _ => rfl⟩

end Record

end FieldRules
