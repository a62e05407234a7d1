import FieldRules.Proofs.Rule.Standing
import FieldRules.Proofs.Value.Unrest
import Mathlib.Data.Finset.Card
import Mathlib.Data.Prod.Lex

/-! How much targets that agree can still change in a field. A target that asks for the opposite
takes something away; any other is kept once it has been enforced, until the value takes another
form. So with every change there is less left to change. -/
namespace FieldRules

variable {targets : List Clause} {s t : Clause} {f g : Field}

namespace Clause

instance (t : Clause) (f : Field) : Decidable (t.Stands f) :=
  inferInstanceAs (Decidable (_ = _))

/-- A target that asks for the opposite takes something out of a field, or the mark, or leaves the
field as it is. -/
theorem exists_of_negated (ht : t.negated = true) (hw : f.value.Writable)
    (h : t.enforceOn f = .ok g) : ∃ w mark, g = { f with value := w, checked := mark } ∧
      (w = f.value ∨ w.bulk < f.value.bulk) ∧ (mark = f.checked ∨ mark = some false) := by
  obtain ⟨name, demand, negated⟩ := t
  dsimp only at ht
  subst ht
  unfold enforceOn at h
  cases demand with
  | set note =>
    cases h
    exact ⟨f.value, some false, rfl, .inl rfl, .inr rfl⟩
  | setToValue v =>
    cases h
    refine ⟨.text "", some false, rfl, ?_, .inr rfl⟩
    by_cases hv : f.value = .text ""
    · exact .inl hv.symm
    · exact .inr (Value.bulk_empty_lt hv)
  | contains item =>
    simp only [Field.enforce, if_true] at h
    split_ifs at h with hitem
    · cases h
      exact ⟨f.value, f.checked, rfl, .inl rfl, .inl rfl⟩
    · obtain ⟨rest, hrest, h⟩ := Fault.bind_eq_ok.mp h
      split at h
      · cases h
        exact ⟨_, f.checked, rfl, Value.bulk_removeItem? hw hrest, .inl rfl⟩
      · cases h
        exact ⟨_, some false, rfl, Value.bulk_removeItem? hw hrest, .inr rfl⟩
      · cases h
        exact ⟨f.value, f.checked, rfl, .inl rfl, .inl rfl⟩

theorem enforceOn_contains {name item : String} (hitem : item ≠ "") :
    enforceOn ⟨name, .contains item, false⟩ f =
      (f.value.addItem item).map fun w => { f with value := w, checked := some true } := by
  simp only [enforceOn, Field.enforce, if_neg hitem, Field.add]
  cases f.value.addItem item <;> rfl

theorem stands_contains {name item : String} (hitem : item ≠ "") :
    Stands ⟨name, .contains item, false⟩ f ↔ f.checked = some true ∧ f.value.Keeps item := by
  rw [Stands, enforceOn_contains hitem, Fault.map_eq_ok, Value.Keeps]
  constructor
  · rintro ⟨w, hw, heq⟩
    obtain ⟨rfl, hmark⟩ := (f.update_eq_self_iff w (some true)).mp heq
    exact ⟨hmark.symm, hw⟩
  · rintro ⟨hmark, hw⟩
    exact ⟨f.value, hw, (f.update_eq_self_iff f.value (some true)).mpr ⟨rfl, hmark.symm⟩⟩

/-- What the value that targets work on can still go through: nothing if one of them gives it. -/
def stage (targets : List Clause) (v : Value) : ℕ :=
  if targets.any (·.state == .setToValue) then 0 else v.phase

/-- A target stands on a field that is checked and whose value keeps what it kept. -/
theorem Stands.of_keeps (hs : s.Stands f) (hplain : s.negated = false)
    (hmark : g.checked = some true) (hset : s.state = .setToValue → g.value = f.value)
    (hkeep : ∀ item, f.value.Keeps item → g.value.Keeps item) : s.Stands g := by
  obtain ⟨name, demand, negated⟩ := s
  dsimp only at hplain
  subst hplain
  cases demand with
  | contains item =>
    by_cases hitem : item = ""
    · subst hitem
      rfl
    · exact (stands_contains hitem).mpr ⟨hmark, hkeep item ((stands_contains hitem).mp hs).2⟩
  | set note => exact (stands_iff (by simp [state, Demand.state])).mpr ⟨hmark, by simp⟩
  | setToValue v =>
    obtain ⟨-, hvalue⟩ := (stands_iff (by simp [state, Demand.state])).mp hs
    refine (stands_iff (by simp [state, Demand.state])).mpr ⟨hmark, fun w hw => ?_⟩
    rw [hset rfl]
    exact hvalue w hw

/-- A target that does not ask for the opposite leads to a later form of the value, or stands along
with all that stood before. -/
theorem stage_enforceOn (hplain : t.negated = false)
    (hc : ∀ s ∈ targets, s.agrees t = true) (ht : t ∈ targets)
    (hw : f.value.Writable) (h : t.enforceOn f = .ok g) :
    stage targets g.value < stage targets f.value ∨
      stage targets g.value = stage targets f.value ∧ t.Stands g ∧
        ∀ s ∈ targets, s.Stands f → s.Stands g := by
  have hneg : ∀ s ∈ targets, s.negated = false := fun s hs =>
    (negated_eq_of_agrees (hc s hs)).trans hplain
  obtain ⟨name, demand, negated⟩ := t
  dsimp only at hplain
  subst hplain
  cases demand with
  | set note =>
    cases h
    refine .inr ⟨rfl, rfl, fun s hs hst => ?_⟩
    exact hst.of_keeps (hneg s hs) rfl (fun _ => rfl) fun item hitem => hitem
  | setToValue v =>
    have hstage : ∀ w, stage targets w = 0 := fun w =>
      if_pos (List.any_eq_true.mpr ⟨_, ht, by simp [state, Demand.state]⟩)
    cases h
    refine .inr ⟨by rw [hstage, hstage], rfl, fun s hs _ => ?_⟩
    have hagree := hc s hs
    have hnegated := hneg s hs
    obtain ⟨sname, sdemand, snegated⟩ := s
    dsimp only at hnegated
    subst hnegated
    cases sdemand with
    | set note => rfl
    | setToValue w =>
      have hvw : w = v := by simpa [agrees, Demand.suits] using hagree
      subst hvw
      rfl
    | contains item => simp [agrees, Demand.suits] at hagree
  | contains item =>
    have hfree : ∀ s ∈ targets, s.state ≠ .setToValue := by
      intro s hs hstate
      have hagree := hc s hs
      obtain ⟨sname, sdemand, snegated⟩ := s
      cases sdemand <;> simp_all [state, Demand.state, agrees, Demand.suits]
    have hstage : ∀ w, stage targets w = w.phase := fun w => if_neg (by simpa using hfree)
    rw [hstage, hstage]
    by_cases hitem : item = ""
    · subst hitem
      cases h
      exact .inr ⟨rfl, rfl, fun s _ hst => hst⟩
    · rw [enforceOn_contains hitem] at h
      obtain ⟨w, hadd, rfl⟩ := Fault.map_eq_ok.mp h
      refine (Value.phase_addItem hw hadd).imp_right ?_
      rintro ⟨hphase, hkeeps, hmore⟩
      refine ⟨hphase, (stands_contains hitem).mpr ⟨rfl, hkeeps⟩, fun s hs hst => ?_⟩
      exact hst.of_keeps (hneg s hs) rfl (fun hstate => absurd hstate (hfree s hs)) hmore

end Clause

/-- How much the targets that work on a field can still change in it. -/
def Field.unrest (targets : List Clause) (f : Field) : (ℕ ×ₗ ℕ) ×ₗ ℕ :=
  if targets.any (·.negated) then
    toLex (f.value.bulk, if f.checked = some false then 0 else 1)
  else
    toLex (toLex (Clause.stage targets f.value,
      (targets.toFinset.filter fun t => ¬ t.Stands f).card), 0)

/-- Whatever a target changes in a field, less can be changed after it. -/
theorem Field.unrest_lt (hc : ∀ s ∈ targets, ∀ t ∈ targets, s.agrees t = true) (ht : t ∈ targets)
    (hw : f.value.Writable) (h : t.enforceOn f = .ok g) (hne : g ≠ f) :
    g.unrest targets < f.unrest targets := by
  unfold unrest
  cases hneg : t.negated with
  | true =>
    rw [if_pos (List.any_eq_true.mpr ⟨t, ht, hneg⟩), if_pos (List.any_eq_true.mpr ⟨t, ht, hneg⟩)]
    obtain ⟨w, mark, rfl, hvalue, hmark⟩ := Clause.exists_of_negated hneg hw h
    rw [Prod.Lex.lt_iff]
    rcases hvalue with rfl | hlt
    · -- the value is as it was, so it is the mark that goes
      have hchange : mark ≠ f.checked := fun hmark => hne (by rw [hmark])
      have hfalse : mark = some false := hmark.resolve_left hchange
      have hbefore : f.checked ≠ some false := fun hf => hchange (hfalse.trans hf.symm)
      refine .inr ⟨rfl, ?_⟩
      simp [hfalse, hbefore]
    · exact .inl hlt
  | false =>
    have hall : ¬ targets.any (·.negated) = true := by
      simp only [List.any_eq_true, not_exists, not_and]
      intro s hs
      rw [Clause.negated_eq_of_agrees (hc s hs t ht), hneg]
      exact Bool.false_ne_true
    rw [if_neg hall, if_neg hall, Prod.Lex.lt_iff, Prod.Lex.lt_iff]
    left
    refine (Clause.stage_enforceOn hneg (fun s hs => hc s hs t ht) ht hw h).imp_right ?_
    rintro ⟨hstage, hst, hmore⟩
    have hbefore : ¬ t.Stands f := fun hf => hne (Except.ok.inj (h.symm.trans hf))
    have hsub : (targets.toFinset.filter fun t => ¬ t.Stands g) ⊂
        targets.toFinset.filter fun t => ¬ t.Stands f := by
      rw [Finset.ssubset_iff_of_subset]
      · exact ⟨t, by simp [ht, hbefore], by simp [hst]⟩
      · intro s hs
        rw [Finset.mem_filter, List.mem_toFinset] at hs ⊢
        exact ⟨hs.1, fun hf => hs.2 (hmore s hs.1 hf)⟩
    exact ⟨hstage, Finset.card_lt_card hsub⟩

end FieldRules
