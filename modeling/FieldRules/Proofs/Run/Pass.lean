import FieldRules.Proofs.Rule.Effect
import FieldRules.Run
import Mathlib.Data.List.Basic

/-! A run as a chain of small steps: one target enforced on one field. What every such step keeps
is kept by the whole run. -/
namespace FieldRules

theorem Field.names_set {fields : List Field} {i : ℕ} {f g : Field} (hf : fields[i]? = some f)
    (hname : g.name = f.name) : (fields.set i g).map (·.name) = fields.map (·.name) := by
  obtain ⟨hlt, rfl⟩ := List.getElem?_eq_some_iff.mp hf
  have hlt : i < (fields.map (·.name)).length := by simpa using hlt
  have hget : (fields.map (·.name))[i] = g.name := by rw [hname, List.getElem_map]
  rw [List.map_set, ← hget, List.set_getElem_self]

namespace Outcome

variable {o o' : Outcome} {r : Rule}

/-- The outcome after a rule: enforced if its conditions hold, and passed over if not. -/
def follow (o : Outcome) (r : Rule) : Except Fault Outcome := do
  if ← r.applies o.fields then o.enforce r else return o

/-- A step of a run: a target of a rule is enforced on a field that it reaches. -/
inductive Step (r : Rule) (o : Outcome) : Outcome → Prop
  | enforce {t : Clause} {i : ℕ} {f g : Field} (ht : t ∈ r.targets)
      (hi : i ∈ Field.reach (o.fields.map (·.name)) t.name) (hf : o.fields[i]? = some f)
      (hg : t.enforceOn f = .ok g) :
      Step r o {
        fields := o.fields.set i g
        reasons := Entries.insert o.reasons f.name (r.sentenceFor t.name)
        changes := o.changes ++ f.changesTo g (r.sentenceFor t.name) }

theorem Step.names_eq (hs : Step r o o') :
    o'.fields.map (·.name) = o.fields.map (·.name) := by
  obtain @⟨t, i, f, g, ht, hi, hf, hg⟩ := hs
  exact Field.names_set hf (Clause.name_of_enforceOn hg)

/-- Where there is no field, a target does nothing. Elsewhere it makes one field of another. -/
theorem enforceAt_cases {t : Clause} {i : ℕ} (h : enforceAt r t o i = .ok o') :
    (o.fields[i]? = none ∧ o' = o) ∨
      ∃ f g, o.fields[i]? = some f ∧ t.enforceOn f = .ok g ∧ o' = {
        fields := o.fields.set i g
        reasons := Entries.insert o.reasons f.name (r.sentenceFor t.name)
        changes := o.changes ++ f.changesTo g (r.sentenceFor t.name) } := by
  unfold enforceAt at h
  split at h
  · rename_i hnone
    cases h
    exact .inl ⟨hnone, rfl⟩
  · rename_i f hf
    obtain ⟨g, hg, h⟩ := Fault.bind_eq_ok.mp h
    cases h
    exact .inr ⟨f, g, hf, hg, rfl⟩

theorem enforceTarget_induct {P : Outcome → Prop} {t : Clause} (ht : t ∈ r.targets)
    (h : enforceTarget r o t = .ok o') (ho : P o)
    (hstep : ∀ o o', Step r o o' → P o → P o') : P o' := by
  unfold enforceTarget at h
  -- the positions are found before the first of them is changed
  refine (Fault.foldlM_induct (P := fun p => P p ∧
    p.fields.map (·.name) = o.fields.map (·.name)) h ⟨ho, rfl⟩ ?_).1
  rintro p p' i hi ⟨hp, hnames⟩ h
  rcases enforceAt_cases h with ⟨-, rfl⟩ | ⟨f, g, hf, hg, rfl⟩
  · exact ⟨hp, hnames⟩
  · have hs := Step.enforce ht (hnames ▸ hi) hf hg
    exact ⟨hstep p _ hs hp, hs.names_eq.trans hnames⟩

theorem enforce_induct {P : Outcome → Prop} (h : o.enforce r = .ok o') (ho : P o)
    (hstep : ∀ o o', Step r o o' → P o → P o') : P o' :=
  Fault.foldlM_induct h ho fun _ _ _ ht hp h => enforceTarget_induct ht h hp hstep

theorem follow_induct {P : Outcome → Prop} (h : o.follow r = .ok o') (ho : P o)
    (hstep : ∀ o o', Step r o o' → P o → P o') : P o' := by
  unfold follow at h
  obtain ⟨met, -, h⟩ := Fault.bind_eq_ok.mp h
  split_ifs at h
  · exact enforce_induct h ho hstep
  · cases h
    exact ho

theorem names_enforceTarget {t : Clause} (ht : t ∈ r.targets) (h : enforceTarget r o t = .ok o') :
    o'.fields.map (·.name) = o.fields.map (·.name) :=
  enforceTarget_induct (P := fun p => p.fields.map (·.name) = o.fields.map (·.name)) ht h rfl
    fun _ _ hs hp => hs.names_eq.trans hp

theorem names_follow (h : o.follow r = .ok o') :
    o'.fields.map (·.name) = o.fields.map (·.name) :=
  follow_induct (P := fun p => p.fields.map (·.name) = o.fields.map (·.name)) h rfl
    fun _ _ hs hp => hs.names_eq.trans hp

/-- Rules leave the fields alone that none of their targets reaches. -/
theorem fields_eq_of_not_reached {names : List String} {rules : List Rule} {i : ℕ}
    (hn : o.fields.map (·.name) = names)
    (hi : ∀ r ∈ rules, ∀ t ∈ r.targets, i ∉ Field.reach names t.name)
    (h : rules.foldlM follow o = .ok o') : o'.fields[i]? = o.fields[i]? := by
  refine (Fault.foldlM_induct (P := fun p => p.fields.map (·.name) = names ∧
    p.fields[i]? = o.fields[i]?) h ⟨hn, rfl⟩ fun p p' r hr hp h => ?_).2
  refine follow_induct (P := fun p => p.fields.map (·.name) = names ∧
    p.fields[i]? = o.fields[i]?) h hp ?_
  rintro p p' hs ⟨hnames, hp⟩
  refine ⟨hs.names_eq.trans hnames, ?_⟩
  obtain @⟨t, j, f, g, ht, hj, hf, hg⟩ := hs
  rw [hnames] at hj
  have hij : j ≠ i := fun hji => hi r hr t ht (hji ▸ hj)
  rw [List.getElem?_set_ne hij, hp]

end Outcome

/-- A run follows one rule after another. -/
theorem Run.outcome_after (o : Outcome) (rules : List Rule) :
    (Run.after o rules).outcome = rules.foldlM Outcome.follow o := by
  induction rules generalizing o with
  | nil => rfl
  | cons r rules ih =>
    rw [List.foldlM_cons, Run.after, Outcome.follow]
    cases r.applies o.fields with
    | error fault => rfl
    | ok met =>
      cases met with
      | false => exact ih o
      | true =>
        dsimp only
        cases h : o.enforce r with
        | error fault => simp [bind, Except.bind]
        | ok o' => simpa [bind, Except.bind, h] using ih o'

theorem Rule.apply_eq (fields : List Field) (rules : List Rule) :
    Rule.apply fields rules = rules.foldlM Outcome.follow { fields } :=
  Run.outcome_after _ rules

/-- What every step of a run keeps is kept by the run. -/
theorem Rule.apply_induct {P : Outcome → Prop} {fields : List Field} {rules : List Rule}
    {o : Outcome} (h : Rule.apply fields rules = .ok o) (hinit : P { fields })
    (hstep : ∀ r ∈ rules, ∀ o o', Outcome.Step r o o' → P o → P o') : P o := by
  rw [Rule.apply_eq] at h
  exact Fault.foldlM_induct h hinit fun _ _ r hr hp h => Outcome.follow_induct h hp (hstep r hr)

theorem Rule.names_apply {fields : List Field} {rules : List Rule} {o : Outcome}
    (h : Rule.apply fields rules = .ok o) :
    o.fields.map (·.name) = fields.map (·.name) :=
  Rule.apply_induct (P := fun p => p.fields.map (·.name) = fields.map (·.name)) h rfl
    fun _ _ _ _ hs hp => hs.names_eq.trans hp

end FieldRules
