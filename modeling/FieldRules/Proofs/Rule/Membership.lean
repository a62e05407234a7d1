import FieldRules.Proofs.Rule.Unrest
import FieldRules.Proofs.Value.Membership

/-! What a condition finds after a target that adds an item or takes one out. The target does what
it says wherever the value is a list, or a text that is read as one. With a running text it depends
on what the text is read as afterwards. -/
namespace FieldRules

variable {c : Clause} {f g : Field} {item : String}

namespace Field

theorem meets_contains (hitem : item ≠ "") {b : Bool} (h : f.value.hasItem item = .ok b) :
    f.meets (.contains item) = .ok (f.isChecked && b) := by
  unfold meets
  simp only [Demand.fits, if_neg hitem, h]
  cases f.isChecked <;> rfl

theorem exists_remove_iff : (∃ g, f.remove item = .ok g) ↔
    ∀ xs, f.value = .list xs → ∀ x ∈ xs, x.Showable := by
  have hanswers : (∃ rest, f.value.removeItem? item = .ok rest) ↔ _ :=
    Value.exists_removeItem?_iff
  rw [← hanswers]
  constructor
  · rintro ⟨g, hg⟩
    obtain ⟨rest, hrest, -⟩ := Fault.bind_eq_ok.mp hg
    exact ⟨rest, hrest⟩
  · rintro ⟨rest, hrest⟩
    simp only [remove, hrest, bind, Except.bind]
    split
    · exact ⟨_, rfl⟩
    · exact ⟨_, rfl⟩
    · exact ⟨_, rfl⟩

/-- Taking out an item leaves the mark as long as the item is there. -/
theorem exists_hasItem_remove (hitem : item ≠ "") (h : f.remove item = .ok g) :
    ∃ b, g.value.hasItem item = .ok b ∧ (b = true ↔ f.value.Regains item) ∧
      (b = true → g.checked = f.checked) := by
  obtain ⟨rest, hrest, h⟩ := Fault.bind_eq_ok.mp h
  cases rest with
  | none =>
    cases h
    obtain ⟨hnone, hnot⟩ := Value.removeItem?_eq_none hrest
    exact ⟨false, hnone, by simp [hnot], fun _ => rfl⟩
  | some rest =>
    obtain ⟨w, remains⟩ := rest
    obtain ⟨b, hb, hregains, hremains⟩ := Value.exists_hasItem_removeItem? hitem hrest
    cases remains with
    | true =>
      cases h
      exact ⟨b, hb, hregains, fun _ => rfl⟩
    | false =>
      cases h
      exact ⟨b, hb, hregains, fun htrue => absurd (hremains htrue) Bool.false_ne_true⟩

end Field

namespace Clause

/-- An item that has been added is found, and adding it once more changes nothing, unless the value
is misread with it. -/
theorem meets_added (hc : c.demand = .contains item) (hplain : c.negated = false)
    (hitem : item ≠ "") :
    ((∃ g, c.enforceOn f = .ok g) ↔ ∃ b, f.value.hasItem item = .ok b) ∧
    (∀ g, c.enforceOn f = .ok g →
      (¬ f.value.Misreads item → g.meets c.demand = .ok true ∧ c.enforceOn g = .ok g) ∧
      (f.value.Misreads item → g.meets c.demand = .ok false ∧
        ∃ h, c.enforceOn g = .ok h ∧ h.value ≠ g.value)) ∧
    ∀ e, Json.lastMark? item = some e → e ≠ ']' → ¬ f.value.Misreads item := by
  obtain ⟨name, demand, negated⟩ := c
  dsimp only at hc hplain
  subst hc hplain
  refine ⟨?_, fun g hg => ?_, fun e he hne hmisread => hne (hmisread.lastMark? he)⟩
  · rw [enforceOn_contains hitem, ← Value.exists_addItem_iff]
    simp [Fault.map_eq_ok]
  · rw [enforceOn_contains hitem] at hg
    obtain ⟨w, hadd, rfl⟩ := Fault.map_eq_ok.mp hg
    obtain ⟨b, hb, hmisread⟩ := Value.exists_hasItem_addItem hadd
    refine ⟨fun hnot => ?_, fun hmis => ?_⟩
    · have htrue : b = true := by simpa [← hmisread] using hnot
      subst htrue
      have hkeeps := Value.keeps_iff.mpr hb
      exact ⟨Field.meets_contains hitem hb, (stands_contains hitem).mpr ⟨rfl, hkeeps⟩⟩
    · have hfalse : b = false := hmisread.mpr hmis
      subst hfalse
      obtain ⟨u, hu⟩ := Value.exists_addItem_iff.mpr ⟨false, hb⟩
      have hne : u ≠ w := by
        rintro rfl
        have htrue := Value.keeps_iff.mp hu
        rw [hb] at htrue
        cases htrue
      refine ⟨Field.meets_contains hitem hb, { f with value := u, checked := some true }, ?_, hne⟩
      rw [enforceOn_contains hitem, hu]
      rfl

/-- A checked field with a text. -/
def memo (value : String) : Field :=
  { name := "memo", value := .text value, checked := some true }

/-- An empty text becomes an empty list when the text of one is added to it. -/
theorem brackets_added : ∃ g, enforceOn ⟨"memo", .contains "[]", false⟩ (memo "") = .ok g ∧
    g.meets (.contains "[]") = .ok false ∧
    ∃ h, enforceOn ⟨"memo", .contains "[]", false⟩ g = .ok h ∧ h.value ≠ g.value := by
  obtain ⟨hanswers, hfound, -⟩ := meets_added (f := memo "")
    (c := ⟨"memo", .contains "[]", false⟩) rfl rfl (by decide)
  obtain ⟨g, hg⟩ := hanswers.mpr ⟨false, rfl⟩
  have hmisread : (memo "").value.Misreads "[]" := ⟨⟨rfl, by decide⟩, [], rfl, by simp⟩
  exact ⟨g, hg, (hfound g hg).2 hmisread⟩

/-- An item that has been taken out is not found, unless what is left of a running text has it. -/
theorem meets_removed (hc : c.demand = .contains item) (hneg : c.negated = true)
    (hitem : item ≠ "") :
    ((∃ g, c.enforceOn f = .ok g) ↔ ∀ xs, f.value = .list xs → ∀ x ∈ xs, x.Showable) ∧
    (∀ g, c.enforceOn f = .ok g →
      (¬ f.value.Regains item →
        g.value.hasItem item = .ok false ∧ g.meets c.demand = .ok false) ∧
      (f.value.Regains item →
        g.value.hasItem item = .ok true ∧ g.meets c.demand = .ok f.isChecked)) ∧
    ∀ s, f.value = .text s → Text.Parted item.toList s.toList →
      Json.lastMark? (Text.eraseItems item s) ≠ some ']' → ¬ f.value.Regains item := by
  obtain ⟨name, demand, negated⟩ := c
  dsimp only at hc hneg
  subst hc hneg
  have henforce : enforceOn ⟨name, .contains item, true⟩ f = f.remove item := by
    simp only [enforceOn, Field.enforce, if_neg hitem, if_true]
  rw [henforce]
  refine ⟨?_, fun g hg => ?_, fun s hs hparted hmark => ?_⟩
  · exact Field.exists_remove_iff
  · obtain ⟨b, hb, hregains, hmark⟩ := Field.exists_hasItem_remove hitem hg
    have hmeets := Field.meets_contains hitem hb
    refine ⟨fun hnot => ?_, fun hagain => ?_⟩
    · have hfalse : b = false := by simpa [← hregains] using hnot
      subst hfalse
      exact ⟨hb, by simpa using hmeets⟩
    · have htrue : b = true := hregains.mpr hagain
      subst htrue
      refine ⟨hb, hmeets.trans ?_⟩
      simp [Field.isChecked, hmark rfl]
  · rintro ⟨t, ht, -, hhas⟩
    cases hs.symm.trans ht
    cases hhas with
    | listText hread => exact hmark (Json.lastMark?_of_decodeList hread)
    | text _ hwithin => exact Text.not_infix_eraseItems hitem hparted hwithin

/-- What stands around an item comes together to the same item when it is taken out. -/
theorem nested_removed : ∃ g, enforceOn ⟨"memo", .contains "ab", true⟩ (memo "aabb") = .ok g ∧
    g.value.hasItem "ab" = .ok true ∧ g.meets (.contains "ab") = .ok true := by
  obtain ⟨hanswers, hfound, -⟩ := meets_removed (f := memo "aabb")
    (c := ⟨"memo", .contains "ab", true⟩) rfl rfl (by decide)
  obtain ⟨g, hg⟩ := hanswers.mpr (by simp [memo])
  have hregains : (memo "aabb").value.Regains "ab" :=
    ⟨"aabb", rfl, rfl, .text rfl (by decide)⟩
  exact ⟨g, hg, (hfound g hg).2 hregains⟩

end Clause

end FieldRules
