import FieldRules.Proofs.Rule.Standing
import FieldRules.Proofs.Run.Pass

/-! Runs of rules whose targets agree wherever they reach a common field. A target that has been
enforced stands on all fields that it reaches, and nothing in the run makes it fall. -/
namespace FieldRules

/-- Whether the target stands on the field at a position, if there is one. -/
def Clause.StandsAt (t : Clause) (fields : List Field) (i : ℕ) : Prop :=
  ∀ f ∈ fields[i]?, t.Stands f

/-- Whether the target stands on all fields that it reaches. -/
def Clause.StandsIn (names : List String) (t : Clause) (fields : List Field) : Prop :=
  ∀ i ∈ Field.reach names t.name, t.StandsAt fields i

/-- Whether all targets of the rule stand. -/
def Rule.StandsIn (names : List String) (r : Rule) (fields : List Field) : Prop :=
  ∀ t ∈ r.targets, t.StandsIn names fields

/-- Any two targets agree that reach a common field. -/
def Rule.Concord (names : List String) (rules : List Rule) : Prop :=
  ∀ s ∈ rules.flatMap (·.targets), ∀ t ∈ rules.flatMap (·.targets),
    ∀ i ∈ Field.reach names s.name, i ∈ Field.reach names t.name → s.agrees t = true

instance (names : List String) (rules : List Rule) : Decidable (Rule.Concord names rules) :=
  inferInstanceAs (Decidable (∀ s ∈ rules.flatMap (·.targets), ∀ t ∈ rules.flatMap (·.targets),
    ∀ i ∈ Field.reach names s.name, i ∈ Field.reach names t.name → s.agrees t = true))

theorem Field.of_getElem?_set {fields : List Field} {i j : ℕ} {f g : Field}
    (h : (fields.set i g)[j]? = some f) : i = j ∧ g = f ∨ fields[j]? = some f := by
  rw [List.getElem?_set] at h
  split_ifs at h with hij
  · exact .inl ⟨hij, Option.some.inj h⟩
  · exact .inr h

namespace Outcome

variable {names : List String} {rules : List Rule} {o o' : Outcome} {r : Rule} {s t : Clause}
  {i j : ℕ}

/-- Every target finds fields that it can be enforced on. -/
structure Suited (names : List String) (rules : List Rule) (o : Outcome) : Prop where
  names_eq : o.fields.map (·.name) = names
  suits : ∀ t ∈ rules.flatMap (·.targets), ∀ i ∈ Field.reach names t.name,
    ∀ f ∈ o.fields[i]?, t.Suits f

theorem Suited.step (hc : Rule.Concord names rules) (h : o.Suited names rules) (hr : r ∈ rules)
    (hs : Step r o o') : o'.Suited names rules := by
  have hnames := hs.names_eq.trans h.names_eq
  obtain @⟨s, i, f, g, hsr, hi, hf, hg⟩ := hs
  have hs : s ∈ rules.flatMap (·.targets) := List.mem_flatMap.mpr ⟨r, hr, hsr⟩
  rw [h.names_eq] at hi
  refine ⟨hnames, fun t ht j hj f' hf' => ?_⟩
  rcases Field.of_getElem?_set hf' with ⟨rfl, rfl⟩ | hf'
  · exact (h.suits t ht i hj f hf).enforceOn (h.suits s hs i hi f hf) (hc s hs t ht i hi hj) hg
  · exact h.suits t ht j hj f' hf'

theorem standsAt_step (hc : Rule.Concord names rules) (h : o.Suited names rules) (hr : r ∈ rules)
    (ht : t ∈ rules.flatMap (·.targets)) (hj : j ∈ Field.reach names t.name)
    (hst : t.StandsAt o.fields j) (hs : Step r o o') : t.StandsAt o'.fields j := by
  obtain @⟨s, i, f, g, hsr, hi, hf, hg⟩ := hs
  have hs : s ∈ rules.flatMap (·.targets) := List.mem_flatMap.mpr ⟨r, hr, hsr⟩
  rw [h.names_eq] at hi
  intro f' hf'
  rcases Field.of_getElem?_set hf' with ⟨rfl, rfl⟩ | hf'
  · exact (hst f hf).enforceOn (h.suits t ht i hj f hf) (h.suits s hs i hi f hf)
      (hc s hs t ht i hi hj) hg
  · exact hst f' hf'

theorem standsIn_step (hc : Rule.Concord names rules) (h : o.Suited names rules) (hr : r ∈ rules)
    (ht : t ∈ rules.flatMap (·.targets)) (hst : t.StandsIn names o.fields) (hs : Step r o o') :
    t.StandsIn names o'.fields :=
  fun j hj => standsAt_step hc h hr ht hj (hst j hj) hs

/-- A target that has been enforced stands. -/
theorem standsIn_of_enforceTarget (hc : Rule.Concord names rules) (h : o.Suited names rules)
    (hr : r ∈ rules) (ht : t ∈ r.targets) (he : enforceTarget r o t = .ok o') :
    t.StandsIn names o'.fields := by
  have hmem : t ∈ rules.flatMap (·.targets) := List.mem_flatMap.mpr ⟨r, hr, ht⟩
  unfold enforceTarget at he
  rw [h.names_eq] at he
  -- at a position without a field nothing happens, at any other the target takes a step
  have hstep : ∀ p p', ∀ i ∈ Field.reach names t.name, p.Suited names rules →
      enforceAt r t p i = .ok p' → (p' = p ∧ p.fields[i]? = none) ∨
        (Step r p p' ∧ t.StandsAt p'.fields i) := by
    intro p p' i hi hp h
    rcases enforceAt_cases h with ⟨hnone, rfl⟩ | ⟨f, g, hf, hg, rfl⟩
    · exact .inl ⟨rfl, hnone⟩
    · refine .inr ⟨.enforce ht (hp.names_eq ▸ hi) hf hg, fun f' hf' => ?_⟩
      have hlt : i < p.fields.length := (List.getElem?_eq_some_iff.mp hf).1
      have hgf : g = f' := by simpa [hlt] using hf'
      rw [← hgf]
      exact Clause.stands_of_enforceOn (hp.suits t hmem i hi f hf) hg
  refine (Fault.foldlM_each (P := Suited names rules) (Q := fun i p => t.StandsAt p.fields i) he h
    ?_ ?_ ?_).2
  · intro p p' i hi hp h
    rcases hstep p p' i hi hp h with ⟨rfl, -⟩ | ⟨hs, -⟩
    · exact hp
    · exact hp.step hc hr hs
  · intro p p' i hi hp h
    rcases hstep p p' i hi hp h with ⟨rfl, hnone⟩ | ⟨-, hst⟩
    · simp [Clause.StandsAt, hnone]
    · exact hst
  · intro p p' i hi j hj hp h hst
    rcases hstep p p' i hi hp h with ⟨rfl, -⟩ | ⟨hs, -⟩
    · exact hst
    · exact standsAt_step hc hp hr hmem hj hst hs

/-- A rule whose targets have been enforced stands. -/
theorem standsIn_of_enforce (hc : Rule.Concord names rules) (h : o.Suited names rules)
    (hr : r ∈ rules) (he : o.enforce r = .ok o') : r.StandsIn names o'.fields := by
  refine (Fault.foldlM_each (P := Suited names rules) (Q := fun t p => t.StandsIn names p.fields)
    he h ?_ ?_ ?_).2
  · exact fun p p' t ht hp h => enforceTarget_induct ht h hp fun _ _ hs hp => hp.step hc hr hs
  · exact fun p p' t ht hp h => standsIn_of_enforceTarget hc hp hr ht h
  · intro p p' t ht u hu hp h hst
    have hmem : u ∈ rules.flatMap (·.targets) := List.mem_flatMap.mpr ⟨r, hr, hu⟩
    refine (enforceTarget_induct (P := fun p => p.Suited names rules ∧ u.StandsIn names p.fields) ht
      h ⟨hp, hst⟩ fun p p' hs hp => ?_).2
    exact ⟨hp.1.step hc hr hs, standsIn_step hc hp.1 hr hmem hp.2 hs⟩

theorem Suited.follow (hc : Rule.Concord names rules) (h : o.Suited names rules) (hr : r ∈ rules)
    (hf : o.follow r = .ok o') : o'.Suited names rules :=
  follow_induct hf h fun _ _ hs hp => hp.step hc hr hs

/-- A rule that stands goes on to stand when another is followed. -/
theorem standsIn_follow (hc : Rule.Concord names rules) (h : o.Suited names rules) (hr : r ∈ rules)
    {r' : Rule} (hr' : r' ∈ rules) (hst : r'.StandsIn names o.fields) (hf : o.follow r = .ok o') :
    r'.StandsIn names o'.fields := by
  intro t ht
  have hmem : t ∈ rules.flatMap (·.targets) := List.mem_flatMap.mpr ⟨r', hr', ht⟩
  refine (follow_induct (P := fun p => p.Suited names rules ∧ t.StandsIn names p.fields) hf
    ⟨h, hst t ht⟩ fun p p' hs hp => ?_).2
  exact ⟨hp.1.step hc hr hs, standsIn_step hc hp.1 hr hmem hp.2 hs⟩

/-- A rule that stands goes on to stand in a whole run. -/
theorem standsIn_foldlM {more : List Rule} (hc : Rule.Concord names rules) (hsub : more ⊆ rules)
    (h : o.Suited names rules) (hr : r ∈ rules) (hst : r.StandsIn names o.fields)
    (hrun : more.foldlM follow o = .ok o') : r.StandsIn names o'.fields :=
  (Fault.foldlM_induct
    (P := fun p : Outcome => p.Suited names rules ∧ r.StandsIn names p.fields) hrun ⟨h, hst⟩
    fun _ _ _ hr' hp hf => ⟨hp.1.follow hc (hsub hr') hf,
      standsIn_follow hc hp.1 (hsub hr') hr hp.2 hf⟩).2

end Outcome

end FieldRules
