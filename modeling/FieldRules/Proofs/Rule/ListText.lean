import FieldRules.Proofs.Run.Total
import FieldRules.Proofs.Value.ListText

/-! Targets on the items of a field that holds a list, and of one that holds the text of the list. -/
namespace FieldRules

open Json

/-- The field with the text that shows its value in place of the value. -/
def Field.asText (f : Field) : Except Fault Field := do
  return { f with value := .text (← f.value.display) }

namespace Field

variable {f : Field} {xs : List Value} {s : String}

theorem asText_written (h : Written xs s) (hf : f.value = .list xs) :
    f.asText = .ok { f with value := .text s } := by
  unfold asText
  rw [hf, Value.display, h.encode]
  rfl

theorem meets_written (h : Written xs s) (hxs : ∀ x ∈ xs, Durable x) (hf : f.value = .list xs)
    (item : String) : ∃ b, f.meets (.contains item) = .ok b ∧
      ({ f with value := .text s } : Field).meets (.contains item) = .ok b := by
  have hwritable : f.value.Writable := by
    rw [hf]
    exact Value.writable_list.mpr fun x hx => (hxs x hx).writable
  obtain ⟨b, hb⟩ := exists_meets hwritable (.contains item)
  refine ⟨b, hb, ?_⟩
  rw [← hb]
  simp only [meets, Demand.fits, isChecked, hf, Value.hasItem_written h]

theorem enforce_written (h : Written xs s) (hxs : ∀ x ∈ xs, Durable x) (hf : f.value = .list xs)
    (negated : Bool) (item : String) : ∃ f' g', f.enforce negated (.contains item) = .ok f' ∧
      f'.asText = .ok g' ∧
        ({ f with value := .text s } : Field).enforce negated (.contains item) = .ok g' := by
  by_cases hitem : item = ""
  · -- an empty item asks for nothing
    exact ⟨f, _, if_pos hitem, asText_written h hf, if_pos hitem⟩
  cases negated with
  | false =>
    obtain ⟨ys, t, ht, hlist, htext⟩ := Value.addItem_written h hxs item
    have hshown := asText_written (f := { f with value := .list ys, checked := some true }) ht rfl
    refine ⟨_, _, ?_, hshown, ?_⟩
    · simp only [enforce, if_neg hitem, add, hf, hlist]
      rfl
    · simp only [enforce, if_neg hitem, add, htext]
      rfl
  | true =>
    obtain ⟨ys, t, ht, hlist, htext⟩ := Value.removeItem?_written h hxs item
    have hshown := asText_written
      (f := { f with value := .list ys, checked := if ys.isEmpty then some false else f.checked })
      ht rfl
    refine ⟨_, _, ?_, hshown, ?_⟩
    · simp only [enforce, if_neg hitem, remove, hf, hlist]
      cases ys.isEmpty <;> rfl
    · simp only [enforce, if_neg hitem, remove, htext]
      cases ys.isEmpty <;> rfl

end Field

/-- A field that holds a list, say of texts and of integers that are not too long, and one that
holds the text of the list contain the same items, and show alike after an item has been added to
both or taken out of both. -/
theorem Clause.contains_asText {c : Clause} {item : String} (hc : c.demand = .contains item)
    {f : Field} {xs : List Value} (hf : f.value = .list xs) (hxs : ∀ x ∈ xs, Durable x) :
    ∃ g, f.asText = .ok g ∧ (∃ b, f.meets c.demand = .ok b ∧ g.meets c.demand = .ok b) ∧
      ∃ f' g', c.enforceOn f = .ok f' ∧ f'.asText = .ok g' ∧ c.enforceOn g = .ok g' := by
  obtain ⟨s, hs⟩ := exists_written hxs
  refine ⟨_, Field.asText_written hs hf, ?_, ?_⟩
  · rw [hc]
    exact Field.meets_written hs hxs hf item
  · unfold Clause.enforceOn
    rw [hc]
    exact Field.enforce_written hs hxs hf c.negated item

/-- A field with two items that are texts and one that is a number. -/
def ports : Field where
  name := "ports"
  value := .list [.text "a\"\\b", .int 12, .text "\u00e9\n"]
  checked := some true

theorem ports_asText : ∃ g, ports.asText = .ok g ∧
    (∃ b, ports.meets (.contains "12") = .ok b ∧ g.meets (.contains "12") = .ok b) ∧
      ∃ f' g', (⟨"ports", .contains "12", true⟩ : Clause).enforceOn ports = .ok f' ∧
        f'.asText = .ok g' ∧ (⟨"ports", .contains "12", true⟩ : Clause).enforceOn g = .ok g' := by
  have hitems : ∀ x ∈ [.text "a\"\\b", .int 12, .text "\u00e9\n"], Durable x := by
    simp only [List.forall_mem_cons]
    exact ⟨durable_text _, durable_int (k := 2) (by decide) (by decide), durable_text _, by simp⟩
  exact Clause.contains_asText (c := ⟨"ports", .contains "12", true⟩) rfl (f := ports) rfl hitems

end FieldRules
