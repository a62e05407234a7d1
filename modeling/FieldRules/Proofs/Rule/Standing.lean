import FieldRules.Proofs.Value.Items
import Mathlib.Data.List.Basic
import Mathlib.Tactic.SplitIfs

/-! Targets that stand on a field: to enforce one once more changes nothing. A target stands once it
has been enforced, and goes on to stand when others are enforced that agree with it. -/
namespace FieldRules

/-- Whether two demands, or the opposites of both, can hold of one value. -/
def Demand.suits (negated : Bool) : Demand → Demand → Bool
  | .setToValue v, .setToValue w => negated || v == w
  | .setToValue _, .contains _ => false
  | .contains _, .setToValue _ => false
  | _, _ => true

/-- Whether two targets can hold of one field. -/
def Clause.agrees (s t : Clause) : Bool :=
  s.negated == t.negated && s.demand.suits s.negated t.demand

namespace Field

variable {f : Field} {xs : List Value} {item : String}

theorem update_eq_self_iff (f : Field) (v : Value) (mark : Option Bool) :
    { f with value := v, checked := mark } = f ↔ v = f.value ∧ mark = f.checked := by
  cases f
  simp

theorem add_list (hf : f.value = .list xs) (hw : ∀ x ∈ xs, x.Writable) :
    f.add item = .ok { f with value := .list (Value.adjoin xs item), checked := some true } := by
  simp only [add, hf, Value.addItem_list (Value.showable_of_writable hw)]
  rfl

theorem remove_list (hf : f.value = .list xs) (hw : ∀ x ∈ xs, x.Writable) :
    f.remove item = .ok { f with
      value := .list (Value.discard xs item)
      checked := if (Value.discard xs item).isEmpty then some false else f.checked } := by
  simp only [remove, hf, Value.removeItem?_list (Value.showable_of_writable hw)]
  cases (Value.discard xs item).isEmpty <;> rfl

end Field

namespace Clause

variable {s t : Clause} {f g : Field} {name item : String} {xs : List Value}

/-- To enforce the target on the field changes nothing. -/
def Stands (t : Clause) (f : Field) : Prop :=
  t.enforceOn f = .ok f

/-- What a target that adds or takes out items needs to find: a list that can be shown. -/
def Suits (t : Clause) (f : Field) : Prop :=
  t.state = .contains → ∃ xs, f.value = .list xs ∧ ∀ x ∈ xs, x.Writable

/-- The field is as a target that sets it asks: checked, or not when the target is negated, and with
the value that the target gives, or an empty one. -/
def Fulfilled (t : Clause) (f : Field) : Prop :=
  f.checked = some !t.negated ∧
    ∀ v, t.demand = .setToValue v → f.value = .text (if t.negated then "" else v)

theorem stands_iff (ht : t.state ≠ .contains) : t.Stands f ↔ t.Fulfilled f := by
  obtain ⟨name, demand, negated⟩ := t
  unfold Stands enforceOn Fulfilled
  cases demand with
  | set note =>
    have h := f.update_eq_self_iff f.value (some !negated)
    simpa [Field.enforce, eq_comm] using h
  | setToValue v =>
    have h := f.update_eq_self_iff (.text (if negated then "" else v)) (some !negated)
    cases negated <;> simpa [Field.enforce, eq_comm, and_comm] using h
  | contains v => exact absurd rfl ht

theorem enforceOn_add (hitem : item ≠ "") (hf : f.value = .list xs)
    (hw : ∀ x ∈ xs, x.Writable) : enforceOn ⟨name, .contains item, false⟩ f =
      .ok { f with value := .list (Value.adjoin xs item), checked := some true } := by
  rw [← Field.add_list hf hw, enforceOn, Field.enforce, if_neg hitem]
  rfl

theorem enforceOn_remove (hitem : item ≠ "") (hf : f.value = .list xs)
    (hw : ∀ x ∈ xs, x.Writable) : enforceOn ⟨name, .contains item, true⟩ f =
      .ok { f with
        value := .list (Value.discard xs item)
        checked := if (Value.discard xs item).isEmpty then some false else f.checked } := by
  rw [← Field.remove_list hf hw, enforceOn, Field.enforce, if_neg hitem]
  rfl

theorem stands_add_iff (hitem : item ≠ "") (hf : f.value = .list xs)
    (hw : ∀ x ∈ xs, x.Writable) : Stands ⟨name, .contains item, false⟩ f ↔
      f.checked = some true ∧ xs.any (·.shown == item) = true := by
  rw [Stands, enforceOn_add hitem hf hw, Except.ok.injEq, Field.update_eq_self_iff, hf, and_comm,
    eq_comm, Value.list.injEq]
  refine and_congr_right fun _ => ⟨fun h => ?_, fun h => if_pos h⟩
  rw [← h]
  exact Value.any_shown_adjoin xs item

theorem stands_remove_iff (hitem : item ≠ "") (hf : f.value = .list xs)
    (hw : ∀ x ∈ xs, x.Writable) : Stands ⟨name, .contains item, true⟩ f ↔
      Value.discard xs item = xs ∧ (xs = [] → f.checked = some false) := by
  rw [Stands, enforceOn_remove hitem hf hw, Except.ok.injEq, Field.update_eq_self_iff, hf,
    Value.list.injEq]
  refine and_congr_right fun hxs => ?_
  rw [hxs]
  cases xs <;> simp [eq_comm]

/-- A target stands on a field on which it has just been enforced. -/
theorem stands_of_enforceOn (hs : t.Suits f) (h : t.enforceOn f = .ok g) : t.Stands g := by
  obtain ⟨name, demand, negated⟩ := t
  cases demand with
  | set note =>
    cases h
    rfl
  | setToValue v =>
    cases h
    cases negated <;> rfl
  | contains item =>
    by_cases hitem : item = ""
    · subst hitem
      rfl
    · obtain ⟨xs, hf, hw⟩ := hs rfl
      cases negated with
      | false =>
        rw [enforceOn_add hitem hf hw] at h
        cases h
        exact (stands_add_iff hitem rfl (Value.writable_adjoin item hw)).mpr
          ⟨rfl, Value.any_shown_adjoin xs item⟩
      | true =>
        rw [enforceOn_remove hitem hf hw] at h
        cases h
        refine (stands_remove_iff hitem rfl (Value.writable_discard item hw)).mpr
          ⟨Value.discard_discard xs item, fun hnil => ?_⟩
        simp [hnil]

/-- A target never takes the mark back that it asks for. -/
theorem checked_enforceOn (hs : s.Suits f) (h : s.enforceOn f = .ok g)
    (hf : f.checked = some !s.negated) : g.checked = some !s.negated := by
  obtain ⟨name, demand, negated⟩ := s
  cases demand with
  | set note =>
    cases h
    rfl
  | setToValue v =>
    cases h
    cases negated <;> rfl
  | contains item =>
    by_cases hitem : item = ""
    · subst hitem
      cases h
      exact hf
    · obtain ⟨xs, hxs, hw⟩ := hs rfl
      cases negated with
      | false =>
        rw [enforceOn_add hitem hxs hw] at h
        cases h
        rfl
      | true =>
        rw [enforceOn_remove hitem hxs hw] at h
        cases h
        dsimp only
        split_ifs
        · rfl
        · exact hf

theorem negated_eq_of_agrees (ha : s.agrees t = true) : s.negated = t.negated := by
  unfold agrees at ha
  simp only [Bool.and_eq_true, beq_iff_eq] at ha
  exact ha.1

/-- A list on which targets agree stays a list. -/
theorem Suits.enforceOn (ht : t.Suits f) (hs : s.Suits f) (ha : s.agrees t = true)
    (h : s.enforceOn f = .ok g) : t.Suits g := by
  obtain ⟨name, demand, negated⟩ := s
  intro htstate
  obtain ⟨xs, hxs, hw⟩ := ht htstate
  cases demand with
  | set note =>
    cases h
    exact ⟨xs, hxs, hw⟩
  | setToValue v =>
    obtain ⟨tname, tdemand, tnegated⟩ := t
    cases tdemand <;> simp_all [state, Demand.state, agrees, Demand.suits]
  | contains item =>
    by_cases hitem : item = ""
    · subst hitem
      cases h
      exact ⟨xs, hxs, hw⟩
    · cases negated with
      | false =>
        rw [enforceOn_add hitem hxs hw] at h
        cases h
        exact ⟨_, rfl, Value.writable_adjoin item hw⟩
      | true =>
        rw [enforceOn_remove hitem hxs hw] at h
        cases h
        exact ⟨_, rfl, Value.writable_discard item hw⟩

/-- A target on items that stands goes on to stand when one is enforced that agrees with it. -/
theorem Stands.enforceOn_contains {negated : Bool} (ht : Stands ⟨name, .contains item, negated⟩ f)
    (hsuits : Suits ⟨name, .contains item, negated⟩ f)
    (ha : s.agrees ⟨name, .contains item, negated⟩ = true) (h : s.enforceOn f = .ok g) :
    Stands ⟨name, .contains item, negated⟩ g := by
  by_cases hitem : item = ""
  · subst hitem
    rfl
  obtain ⟨xs, hf, hw⟩ := hsuits rfl
  have hneg : s.negated = negated := negated_eq_of_agrees ha
  obtain ⟨sname, demand, snegated⟩ := s
  dsimp only at hneg
  subst hneg
  cases demand with
  | set note =>
    cases h
    cases snegated with
    | false =>
      have hany := ((stands_add_iff hitem hf hw).mp ht).2
      exact (stands_add_iff (f := { f with checked := some true }) hitem hf hw).mpr ⟨rfl, hany⟩
    | true =>
      have hrest := ((stands_remove_iff hitem hf hw).mp ht).1
      exact (stands_remove_iff (f := { f with checked := some false }) hitem hf hw).mpr
        ⟨hrest, fun _ => rfl⟩
  | setToValue v => simp [agrees, Demand.suits] at ha
  | contains other =>
    by_cases hother : other = ""
    · subst hother
      cases h
      exact ht
    cases snegated with
    | false =>
      have hany := ((stands_add_iff hitem hf hw).mp ht).2
      rw [enforceOn_add hother hf hw] at h
      cases h
      exact (stands_add_iff hitem rfl (Value.writable_adjoin other hw)).mpr
        ⟨rfl, Value.any_shown_adjoin_of_any hany⟩
    | true =>
      have hrest := ((stands_remove_iff hitem hf hw).mp ht).1
      rw [enforceOn_remove hother hf hw] at h
      cases h
      refine (stands_remove_iff hitem rfl (Value.writable_discard other hw)).mpr
        ⟨Value.discard_discard_of_eq hrest, fun hnil => ?_⟩
      simp [hnil]

/-- A target that stands goes on to stand when one is enforced that agrees with it. -/
theorem Stands.enforceOn (ht : t.Stands f) (hsuits : t.Suits f) (hs : s.Suits f)
    (ha : s.agrees t = true) (h : s.enforceOn f = .ok g) : t.Stands g := by
  by_cases hstate : t.state = .contains
  · obtain ⟨name, demand, negated⟩ := t
    cases demand with
    | contains item => exact ht.enforceOn_contains hsuits ha h
    | _ => cases hstate
  · have hneg := negated_eq_of_agrees ha
    obtain ⟨hmark, hvalue⟩ := (stands_iff hstate).mp ht
    have hmark' : g.checked = some !t.negated := by
      rw [← hneg] at hmark ⊢
      exact checked_enforceOn hs h hmark
    refine (stands_iff hstate).mpr ⟨hmark', fun v hv => ?_⟩
    obtain ⟨sname, demand, negated⟩ := s
    cases demand with
    | set note =>
      cases h
      exact hvalue v hv
    | setToValue w =>
      cases h
      dsimp only at hneg
      have hvw : negated = true ∨ w = v := by
        simpa [agrees, Demand.suits, hv] using (Bool.and_eq_true _ _).mp ha |>.2
      rw [← hneg]
      cases negated with
      | true => rfl
      | false => simp_all
    | contains item => simp [agrees, Demand.suits, hv] at ha

end Clause

end FieldRules
