import FieldRules.Proofs.Run.Pass

/-! Targets that set a field. Whatever the field was before, such a target leaves the same mark and,
if it gives a value, the same value; so do several of them in a row. -/
namespace FieldRules

/-- A mark and a value that take the place of those of a field, where they are given. -/
structure Reset where
  mark : Option Bool := none
  value : Option Value := none

namespace Reset

/-- The field after a reset. -/
def on (R : Reset) (f : Field) : Field :=
  { f with value := R.value.getD f.value, checked := R.mark.or f.checked }

/-- One reset and then another. -/
def followedBy (R S : Reset) : Reset :=
  ⟨S.mark.or R.mark, S.value.or R.value⟩

@[simp] theorem on_empty : Reset.on {} = id := rfl

theorem on_followedBy (R S : Reset) : (R.followedBy S).on = S.on ∘ R.on := by
  obtain ⟨mark, value⟩ := S
  unfold on followedBy
  cases mark <;> cases value <;> rfl

theorem on_comp_on (R : Reset) : R.on ∘ R.on = R.on := by
  obtain ⟨mark, value⟩ := R
  unfold on
  cases mark <;> cases value <;> rfl

end Reset

/-- What a target that sets a field leaves. -/
def Clause.reset (t : Clause) : Reset :=
  match t.demand with
  | .set _ => { mark := some !t.negated }
  | .setToValue value =>
    { mark := some !t.negated, value := some (.text (if t.negated then "" else value)) }
  | .contains _ => {}

theorem Clause.enforceOn_eq_ok {t : Clause} (ht : t.state ≠ .contains) (f : Field) :
    t.enforceOn f = .ok (t.reset.on f) := by
  obtain ⟨name, demand, negated⟩ := t
  cases demand with
  | set note => rfl
  | setToValue value => cases negated <;> rfl
  | contains value => exact absurd rfl ht

/-- What a target leaves at one of the positions of the fields. -/
def Clause.resetAt (names : List String) (t : Clause) (i : ℕ) : Reset :=
  if i ∈ Field.reach names t.name then t.reset else {}

/-- What the targets of a rule leave at one of the positions of the fields. -/
def Rule.resetAt (names : List String) (r : Rule) (i : ℕ) : Reset :=
  r.targets.foldl (fun R t => R.followedBy (t.resetAt names i)) {}

theorem Rule.resetAt_eq_empty {names : List String} {r : Rule} {i : ℕ}
    (h : ∀ t ∈ r.targets, i ∉ Field.reach names t.name) : r.resetAt names i = {} := by
  unfold resetAt
  apply List.foldlRecOn (motive := fun R : Reset => R = {}) _ _ rfl
  intro R hR t ht
  rw [hR, Clause.resetAt, if_neg (h t ht)]
  rfl

namespace Outcome

variable {o o' : Outcome} {r : Rule} {t : Clause} {names : List String}

theorem fields_enforceAt (ht : t.state ≠ .contains) {j : ℕ}
    (h : enforceAt r t o j = .ok o') (i : ℕ) :
    o'.fields[i]? = if i = j then o.fields[i]?.map t.reset.on else o.fields[i]? := by
  unfold enforceAt at h
  by_cases hi : i = j
  · subst hi
    rw [if_pos rfl]
    cases hf : o.fields[i]? with
    | none =>
      rw [hf] at h
      cases h
      exact hf
    | some f =>
      have hlt : i < o.fields.length := (List.getElem?_eq_some_iff.mp hf).1
      simp only [hf, Clause.enforceOn_eq_ok ht] at h
      cases h
      simp [hlt]
  · rw [if_neg hi]
    split at h
    · cases h
      rfl
    · obtain ⟨g, -, h⟩ := Fault.bind_eq_ok.mp h
      cases h
      exact List.getElem?_set_ne (Ne.symm hi)

theorem fields_enforceTarget (ht : t.state ≠ .contains) (hn : o.fields.map (·.name) = names)
    (h : enforceTarget r o t = .ok o') (i : ℕ) :
    o'.fields[i]? = o.fields[i]?.map (t.resetAt names i).on := by
  unfold enforceTarget at h
  rw [hn] at h
  unfold Clause.resetAt
  generalize Field.reach names t.name = positions at h
  clear hn
  induction positions generalizing o with
  | nil =>
    cases h
    rw [if_neg List.not_mem_nil, Reset.on_empty, Option.map_id]
    rfl
  | cons j positions ih =>
    rw [List.foldlM_cons] at h
    obtain ⟨o₁, ho₁, h⟩ := Fault.bind_eq_ok.mp h
    rw [ih h, fields_enforceAt ht ho₁ i]
    by_cases hj : i = j
    · have hmem : i ∈ j :: positions := hj ▸ List.mem_cons_self
      rw [if_pos hj, Option.map_map, if_pos hmem]
      by_cases hi : i ∈ positions
      · rw [if_pos hi, Reset.on_comp_on]
      · rw [if_neg hi, Reset.on_empty, Function.id_comp]
    · rw [if_neg hj]
      simp [hj]

theorem fields_enforceTargets {targets : List Clause} (hmem : targets ⊆ r.targets)
    (ht : ∀ t ∈ targets, t.state ≠ .contains) (hn : o.fields.map (·.name) = names)
    (h : targets.foldlM (enforceTarget r) o = .ok o') {R : Reset} {i : ℕ} {f? : Option Field}
    (hf : o.fields[i]? = f?.map R.on) :
    o'.fields[i]? =
      f?.map (targets.foldl (fun R t => R.followedBy (t.resetAt names i)) R).on := by
  induction targets generalizing o R with
  | nil =>
    cases h
    exact hf
  | cons t targets ih =>
    rw [List.foldlM_cons] at h
    obtain ⟨o₁, ho₁, h⟩ := Fault.bind_eq_ok.mp h
    obtain ⟨hstate, ht⟩ := List.forall_mem_cons.mp ht
    obtain ⟨htr, hmem⟩ := List.cons_subset.mp hmem
    have hn₁ : o₁.fields.map (·.name) = names := (names_enforceTarget htr ho₁).trans hn
    have hf₁ : o₁.fields[i]? = f?.map (R.followedBy (t.resetAt names i)).on := by
      rw [fields_enforceTarget hstate hn ho₁ i, hf, Option.map_map, Reset.on_followedBy]
    exact ih hmem ht hn₁ h hf₁

theorem fields_enforce (ht : ∀ t ∈ r.targets, t.state ≠ .contains)
    (hn : o.fields.map (·.name) = names) (h : o.enforce r = .ok o') (i : ℕ) :
    o'.fields[i]? = o.fields[i]?.map (r.resetAt names i).on :=
  fields_enforceTargets (List.Subset.refl _) ht hn h (by simp)

theorem fields_follow (ht : ∀ t ∈ r.targets, t.state ≠ .contains)
    (hn : o.fields.map (·.name) = names) (h : o.follow r = .ok o') :
    ∃ met, r.applies o.fields = .ok met ∧
      ∀ i, o'.fields[i]? = o.fields[i]?.map (if met then r.resetAt names i else {}).on := by
  unfold follow at h
  obtain ⟨met, hmet, h⟩ := Fault.bind_eq_ok.mp h
  refine ⟨met, hmet, fun i => ?_⟩
  cases met with
  | true => exact fields_enforce ht hn h i
  | false =>
    cases h
    simp

end Outcome

end FieldRules
