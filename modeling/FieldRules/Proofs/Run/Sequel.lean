import FieldRules.Proofs.Entries
import FieldRules.Proofs.Run.Pass

/-! Rules in two parts. A run of all of them is a run of the first part and then, over the fields
that this one left, a run of the second; what the two have done adds up. -/
namespace FieldRules

namespace Outcome

variable {o p p' : Outcome} {r : Rule} {t : Clause} {i : ℕ} {rules : List Rule}

/-- What a run has done together with the one before it, on whose fields it went on. -/
def andThen (o p : Outcome) : Outcome where
  fields := p.fields
  reasons := Entries.overlay o.reasons p.reasons
  changes := o.changes ++ p.changes

theorem andThen_nil (o : Outcome) : o.andThen { fields := o.fields } = o := by
  simp [andThen, Entries.overlay]

/-- No field has two reasons. -/
def Distinct (o : Outcome) : Prop :=
  (Entries.keys o.reasons).Nodup

theorem distinct_init (fields : List Field) : Distinct { fields } :=
  List.nodup_nil

theorem Distinct.step {o' : Outcome} (h : o.Distinct) (hs : Step r o o') : o'.Distinct := by
  obtain ⟨-, -, -, -⟩ := hs
  exact Entries.nodup_keys_insert h

theorem Distinct.enforceAt (h : p.Distinct) (ht : enforceAt r t p i = .ok p') : p'.Distinct := by
  rcases enforceAt_cases ht with ⟨-, rfl⟩ | ⟨f, g, -, -, rfl⟩
  · exact h
  · exact Entries.nodup_keys_insert h

theorem enforceAt_andThen (h : p.Distinct) :
    enforceAt r t (o.andThen p) i = (enforceAt r t p i).map o.andThen := by
  have hfields : (o.andThen p).fields[i]? = p.fields[i]? := rfl
  unfold enforceAt
  rw [hfields]
  cases p.fields[i]? with
  | none => rfl
  | some f =>
    cases hg : t.enforceOn f with
    | error fault => simp [hg, bind, Except.bind, Except.map]
    | ok g =>
      simp [hg, bind, Except.bind, pure, Except.pure, Except.map, andThen,
        Entries.overlay_insert _ _ h]

theorem enforceTarget_andThen (h : p.Distinct) :
    enforceTarget r (o.andThen p) t = (enforceTarget r p t).map o.andThen :=
  Fault.foldlM_map h (fun _ _ _ _ => Distinct.enforceAt) fun _ _ _ => enforceAt_andThen

theorem follow_andThen (h : p.Distinct) :
    (o.andThen p).follow r = (p.follow r).map o.andThen := by
  have hfields : (o.andThen p).fields = p.fields := rfl
  unfold follow
  rw [hfields]
  cases r.applies p.fields with
  | error fault => rfl
  | ok met =>
    cases met with
    | false => rfl
    | true =>
      refine Fault.foldlM_map h (fun p p' t ht hp hp' => ?_) fun p t _ => enforceTarget_andThen
      exact enforceTarget_induct ht hp' hp fun _ _ hs hp => hp.step hs

/-- To go on with rules after a run is to run them over its fields, and to add up the two. -/
theorem foldlM_follow (o : Outcome) (rules : List Rule) :
    rules.foldlM follow o = (Rule.apply o.fields rules).map o.andThen := by
  have hkept : ∀ p p', ∀ r ∈ rules, Distinct p → follow p r = .ok p' → Distinct p' :=
    fun _ _ _ _ hp hp' => follow_induct hp' hp fun _ _ hs hp => hp.step hs
  have h := Fault.foldlM_map (g := o.andThen) (distinct_init o.fields) hkept
    fun _ _ _ => follow_andThen
  rwa [andThen_nil, ← Rule.apply_eq] at h

end Outcome

theorem Rule.distinct_apply {fields : List Field} {rules : List Rule} {o : Outcome}
    (h : Rule.apply fields rules = .ok o) : o.Distinct :=
  Rule.apply_induct h (Outcome.distinct_init fields) fun _ _ _ _ hs ho => ho.step hs

/-- The changes of the event before a run stay in front of its own, and that is all they do. -/
theorem Run.outcome_of (fields : List Field) (rules : List Rule) (trigger : Option Trigger)
    (before : Option (List Field)) :
    (Run.of fields rules trigger before).outcome = (Rule.apply fields rules).map fun o =>
      { o with changes := (trigger.map fun t => t.changes before fields).getD [] ++ o.changes } := by
  unfold Run.of
  rw [Run.outcome_after, Outcome.foldlM_follow]
  cases h : Rule.apply fields rules with
  | error fault => rfl
  | ok o =>
    have hreasons : Entries.overlay [] o.reasons = o.reasons :=
      Entries.ofPairs_eq (Rule.distinct_apply h)
    simp [Except.map, Outcome.andThen, hreasons]

/-- A run of rules goes on with more rules over the fields that it leaves. -/
theorem Rule.apply_append (fields : List Field) (rules more : List Rule) :
    Rule.apply fields (rules ++ more) = do
      let above ← Rule.apply fields rules
      let below ← Rule.apply above.fields more
      return above.andThen below := by
  rw [Rule.apply_eq, List.foldlM_append, ← Rule.apply_eq]
  cases Rule.apply fields rules with
  | error fault => rfl
  | ok above =>
    change more.foldlM Outcome.follow above = _
    rw [Outcome.foldlM_follow]
    cases h : Rule.apply above.fields more with
    | error fault => simp [h, bind, Except.bind, Except.map]
    | ok below => simp [h, bind, Except.bind, Except.map, pure, Except.pure]

theorem Rule.apply_append_eq_ok {fields : List Field} {rules more : List Rule} {o : Outcome} :
    Rule.apply fields (rules ++ more) = .ok o ↔ ∃ above below,
      Rule.apply fields rules = .ok above ∧ Rule.apply above.fields more = .ok below ∧
        above.andThen below = o := by
  rw [Rule.apply_append, Fault.bind_eq_ok]
  refine exists_congr fun above => ?_
  rw [Fault.bind_eq_ok, ← exists_and_left]
  exact exists_congr fun below => and_congr_right fun _ => and_congr_right fun _ =>
    ⟨Except.ok.inj, congrArg _⟩

end FieldRules
