import FieldRules.Proofs.Run.Pass
import FieldRules.Proofs.Value.Items
import Mathlib.Tactic.Choose

/-! A run over writable fields gives an outcome, and its fields are writable again. -/
namespace FieldRules

/-- The values of all fields are writable. -/
def Field.AllWritable (fields : List Field) : Prop :=
  ∀ f ∈ fields, f.value.Writable

variable {fields : List Field}

theorem Demand.exists_fits {v : Value} (h : v.Writable) (d : Demand) :
    ∃ b, d.fits v = .ok b := by
  cases d with
  | set note => exact ⟨_, rfl⟩
  | setToValue value =>
    unfold fits
    rw [Value.display_eq_ok h.showable]
    exact ⟨_, rfl⟩
  | contains value =>
    simp only [fits]
    by_cases hv : value = ""
    · rw [if_pos hv]
      exact ⟨false, rfl⟩
    · rw [if_neg hv]
      exact Value.exists_hasItem h value

theorem Field.exists_meets {f : Field} (h : f.value.Writable) (d : Demand) :
    ∃ b, f.meets d = .ok b := by
  unfold meets
  by_cases hf : f.isChecked = true
  · rw [if_pos hf]
    exact d.exists_fits h
  · rw [if_neg hf]
    exact ⟨false, rfl⟩

theorem Fault.exists_allM {α : Type} {f : α → Except Fault Bool} {xs : List α}
    (h : ∀ x ∈ xs, ∃ b, f x = .ok b) : ∃ b, xs.allM f = .ok b := by
  choose! g hg using h
  exact ⟨_, allM_eq_ok hg⟩

theorem Field.mem_of_mem_reached {f : Field} {name : String}
    (h : f ∈ Field.reached fields name) : f ∈ fields := by
  obtain ⟨i, -, hi⟩ := List.mem_filterMap.mp h
  exact List.mem_of_getElem? hi

theorem Clause.exists_holds (h : Field.AllWritable fields) (c : Clause) :
    ∃ b, c.holds fields = .ok b := by
  obtain ⟨met, hmet⟩ : ∃ b, (Field.reached fields c.name).allM (·.meets c.demand) = .ok b := by
    apply Fault.exists_allM
    intro f hf
    exact Field.exists_meets (h f (Field.mem_of_mem_reached hf)) c.demand
  unfold holds
  rw [hmet]
  exact ⟨_, rfl⟩

theorem Rule.exists_applies (h : Field.AllWritable fields) (r : Rule) :
    ∃ b, r.applies fields = .ok b :=
  Fault.exists_allM fun c _ => c.exists_holds h

theorem Clause.exists_enforceOn {f : Field} (h : f.value.Writable) (t : Clause) :
    ∃ g, t.enforceOn f = .ok g ∧ g.value.Writable := by
  obtain ⟨name, demand, negated⟩ := t
  unfold enforceOn
  cases demand with
  | set note => exact ⟨_, rfl, h⟩
  | setToValue value =>
    cases negated with
    | false => exact ⟨_, rfl, Value.writable_text value⟩
    | true => exact ⟨_, rfl, Value.writable_text ""⟩
  | contains value =>
    simp only [Field.enforce]
    by_cases hv : value = ""
    · rw [if_pos hv]
      exact ⟨f, rfl, h⟩
    · rw [if_neg hv]
      cases negated with
      | false =>
        obtain ⟨w, hw, hwritable⟩ := Value.exists_addItem h value
        simp only [Field.add, hw]
        exact ⟨_, rfl, hwritable⟩
      | true =>
        obtain ⟨rest, hrest, hwritable⟩ := Value.exists_removeItem? h value
        simp only [Field.remove, hrest]
        cases rest with
        | none => exact ⟨_, rfl, h⟩
        | some rest =>
          obtain ⟨w, remains⟩ := rest
          have hw : w.Writable := hwritable (w, remains) rfl
          cases remains with
          | true => exact ⟨_, rfl, hw⟩
          | false => exact ⟨_, rfl, hw⟩

namespace Outcome

variable {o : Outcome} {r : Rule}

theorem exists_enforceAt (h : Field.AllWritable o.fields) (t : Clause) (i : ℕ) :
    ∃ o', enforceAt r t o i = .ok o' ∧ Field.AllWritable o'.fields := by
  unfold enforceAt
  cases hi : o.fields[i]? with
  | none => exact ⟨o, rfl, h⟩
  | some f =>
    obtain ⟨g, hg, hwritable⟩ := t.exists_enforceOn (h f (List.mem_of_getElem? hi))
    dsimp only
    rw [hg]
    refine ⟨_, rfl, fun f' hf' => ?_⟩
    rcases List.mem_or_eq_of_mem_set hf' with hf' | rfl
    · exact h f' hf'
    · exact hwritable

theorem exists_enforce (h : Field.AllWritable o.fields) :
    ∃ o', o.enforce r = .ok o' ∧ Field.AllWritable o'.fields := by
  refine Fault.exists_foldlM (fun o t _ ho => ?_) h
  exact Fault.exists_foldlM (fun o i _ ho => exists_enforceAt ho t i) ho

theorem exists_follow (h : Field.AllWritable o.fields) :
    ∃ o', o.follow r = .ok o' ∧ Field.AllWritable o'.fields := by
  obtain ⟨met, hmet⟩ := r.exists_applies h
  unfold follow
  rw [hmet]
  cases met with
  | false => exact ⟨o, rfl, h⟩
  | true => exact exists_enforce h

end Outcome

theorem Run.exists_after {o : Outcome} (h : Field.AllWritable o.fields) (rules : List Rule) :
    ∃ o', (Run.after o rules).outcome = .ok o' ∧ Field.AllWritable o'.fields := by
  rw [Run.outcome_after]
  exact Fault.exists_foldlM (fun o r _ ho => Outcome.exists_follow ho) h

theorem Rule.exists_apply (h : Field.AllWritable fields) (rules : List Rule) :
    ∃ o, Rule.apply fields rules = .ok o ∧ Field.AllWritable o.fields :=
  Run.exists_after (o := { fields }) h rules

end FieldRules
