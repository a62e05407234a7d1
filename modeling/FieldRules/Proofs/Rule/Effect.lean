import FieldRules.Proofs.Fault
import FieldRules.Proofs.Value.Agreement
import FieldRules.Rule.Target
import Mathlib.Tactic.SplitIfs

/-! What enforcing a target does to a field: its mark may change, and its value is kept, replaced by
a text, or, if it is a list, loses items or gets one more. -/
namespace FieldRules

/-- Enforcing a target changes the mark and the value of a field and nothing else. -/
theorem Clause.eq_of_enforceOn {t : Clause} {f g : Field} (h : t.enforceOn f = .ok g) :
    g = { f with value := g.value, checked := g.checked } := by
  obtain ⟨name, demand, negated⟩ := t
  unfold enforceOn at h
  cases demand with
  | set note =>
    cases h
    rfl
  | setToValue value =>
    cases h
    cases negated <;> rfl
  | contains value =>
    simp only [Field.enforce] at h
    split_ifs at h
    · cases h
      rfl
    · obtain ⟨rest, -, h⟩ := Fault.bind_eq_ok.mp h
      split at h <;>
      · cases h
        rfl
    · obtain ⟨v, -, h⟩ := Fault.bind_eq_ok.mp h
      cases h
      rfl

theorem Clause.name_of_enforceOn {t : Clause} {f g : Field} (h : t.enforceOn f = .ok g) :
    g.name = f.name := by
  rw [eq_of_enforceOn h]

/-- What may become of a value. A list that stays as long as it was stays the same. -/
inductive Value.Becomes (v : Value) : Value → Prop
  | kept : Becomes v v
  | text (s : String) : Becomes v (.text s)
  | list {xs ys : List Value} (hv : v = .list xs) (hys : ∀ y ∈ ys, y ∈ xs ∨ ∃ s, y = .text s)
      (hlen : ys.length = xs.length → ys = xs) : Becomes v (.list ys)

namespace Value

variable {v w : Value} {item : String}

theorem becomes_addItem (h : v.addItem item = .ok w) : v.Becomes w := by
  cases v with
  | list xs =>
    simp only [addItem] at h
    obtain ⟨b, -, h⟩ := Fault.bind_eq_ok.mp h
    cases b with
    | true =>
      cases h
      exact .kept
    | false =>
      cases h
      refine .list rfl (fun y hy => ?_) fun hlen => ?_
      · rcases List.mem_append.mp hy with hy | hy
        · exact Or.inl hy
        · exact Or.inr ⟨item, List.mem_singleton.mp hy⟩
      · simp at hlen
  | text s =>
    simp only [addItem] at h
    split at h
    · obtain ⟨b, -, h⟩ := Fault.bind_eq_ok.mp h
      cases b with
      | true =>
        cases h
        exact .kept
      | false =>
        obtain ⟨t, -, h⟩ := Fault.bind_eq_ok.mp h
        cases h
        exact .text t
    · cases h
      exact .text _
  | _ =>
    cases h
    exact .text item

theorem becomes_removeItem? {b : Bool} (h : v.removeItem? item = .ok (some (w, b))) :
    v.Becomes w := by
  cases v with
  | list xs =>
    simp only [removeItem?] at h
    obtain ⟨rest, hrest, h⟩ := Fault.bind_eq_ok.mp h
    cases h
    have hsub : rest.Sublist xs := Fault.sublist_of_filterM hrest
    exact .list rfl (fun y hy => Or.inl (hsub.subset hy)) hsub.eq_of_length
  | text s =>
    simp only [removeItem?] at h
    split at h
    · obtain ⟨rest, -, h⟩ := Fault.bind_eq_ok.mp h
      obtain ⟨t, -, h⟩ := Fault.bind_eq_ok.mp h
      cases h
      exact .text t
    · cases h
      exact .text _
  | _ => cases h

namespace Becomes

theorem keyed (h : v.Becomes w) (hv : v.Keyed) : w.Keyed := by
  cases h with
  | kept => exact hv
  | text s => exact keyed_text s
  | list hxs hys _ =>
    subst hxs
    refine keyed_list.mpr fun y hy => ?_
    rcases hys y hy with hy | ⟨s, rfl⟩
    · exact keyed_list.mp hv y hy
    · exact keyed_text s

theorem eq_nan (h : v.Becomes w) (hw : w = .double .nan) : v = .double .nan := by
  cases h with
  | kept => exact hw
  | text s => cases hw
  | list _ _ _ => cases hw

/-- No other value takes the place of one without counting as a change. -/
theorem eq_of_unchanged (h : v.Becomes w) (hw : changed v w = false) : w = v := by
  cases h with
  | kept => rfl
  | text s =>
    have hagree : agrees true v (.text s) = true := by simpa [changed] using hw
    exact (eq_text_of_agrees hagree).symm
  | @list xs ys hxs hys hlen =>
    subst hxs
    have hagree : agreesItems true xs ys = true := by simpa [changed, agrees] using hw
    rw [hlen (length_eq_of_agreesItems hagree).symm]

end Becomes

end Value

/-- Enforcing a target keeps a value, puts a text in its place, or adds an item or takes one out. -/
theorem Clause.value_of_enforceOn {t : Clause} {f g : Field} (h : t.enforceOn f = .ok g) :
    g.value = f.value ∨ (∃ s, g.value = .text s) ∨ ∃ item, f.value.addItem item = .ok g.value ∨
      ∃ b, f.value.removeItem? item = .ok (some (g.value, b)) := by
  obtain ⟨name, demand, negated⟩ := t
  unfold enforceOn at h
  cases demand with
  | set note =>
    cases h
    exact .inl rfl
  | setToValue value =>
    cases h
    cases negated with
    | false => exact .inr (.inl ⟨value, rfl⟩)
    | true => exact .inr (.inl ⟨"", rfl⟩)
  | contains value =>
    simp only [Field.enforce] at h
    split_ifs at h
    · cases h
      exact .inl rfl
    · obtain ⟨rest, hrest, h⟩ := Fault.bind_eq_ok.mp h
      split at h
      · cases h
        exact .inr (.inr ⟨value, .inr ⟨true, hrest⟩⟩)
      · cases h
        exact .inr (.inr ⟨value, .inr ⟨false, hrest⟩⟩)
      · cases h
        exact .inl rfl
    · obtain ⟨v, hv, h⟩ := Fault.bind_eq_ok.mp h
      cases h
      exact .inr (.inr ⟨value, .inl hv⟩)

theorem Clause.becomes_of_enforceOn {t : Clause} {f g : Field} (h : t.enforceOn f = .ok g) :
    f.value.Becomes g.value := by
  rcases value_of_enforceOn h with hkept | ⟨s, htext⟩ | ⟨item, hadd | ⟨b, hremove⟩⟩
  · rw [hkept]
    exact .kept
  · rw [htext]
    exact .text s
  · exact Value.becomes_addItem hadd
  · exact Value.becomes_removeItem? hremove

end FieldRules
