import FieldRules.Proofs.Dependency.Harmful
import FieldRules.Proofs.Rule.Contradiction
import FieldRules.Proofs.Rule.Unrest
import FieldRules.Proofs.Run.Settling
import FieldRules.Proofs.Run.Standing
import Mathlib.Order.WellFoundedSet

/-! Rules whose targets agree, run again and again. Each run that changes something leaves less to
change, so some run is quiet, and all after it. Where targets on items find lists, such a run also
makes one more rule stand, so there are no more of them than rules. That two rules are
contrapositive is not enough for any of it. -/
namespace FieldRules

variable {names : List String} {fields : List Field} {rules : List Rule} {r : Rule} {o o' : Outcome}

theorem Field.changesTo_self {f : Field} (hk : f.value.Keyed) (hnan : f.value ≠ .double .nan)
    (reason : String) : f.changesTo f reason = [] := by
  have hsame : Value.changed f.value f.value = false :=
    Bool.eq_false_iff.mpr fun h => hnan (Value.eq_nan_of_changed_self hk h)
  simp [changesTo, hsame]

namespace Outcome

/-- Nothing has been changed since the start. -/
def Quiet (fields : List Field) (o : Outcome) : Prop :=
  o.fields = fields ∧ o.changes = []

/-- A rule that stands changes nothing. -/
theorem Quiet.enforce (hn : fields.map (·.name) = names) (hk : ∀ f ∈ fields, f.value.Keyed)
    (hnan : ∀ f ∈ fields, f.value ≠ .double .nan) (hst : r.StandsIn names fields)
    (h : o.Quiet fields) (he : o.enforce r = .ok o') : o'.Quiet fields := by
  refine enforce_induct he h ?_
  rintro p p' ⟨ht, hi, hf, hg⟩ ⟨hfields, hchanges⟩
  rename_i t i f g
  rw [hfields, hn] at hi
  rw [hfields] at hf
  have hsame : t.enforceOn f = .ok f := hst t ht i hi f hf
  rw [hsame] at hg
  cases hg
  have hmem : f ∈ fields := List.mem_of_getElem? hf
  obtain ⟨hlt, hget⟩ := List.getElem?_eq_some_iff.mp hf
  refine ⟨?_, ?_⟩
  · dsimp only
    rw [hfields, ← hget, List.set_getElem_self]
  · dsimp only
    rw [hchanges, Field.changesTo_self (hk f hmem) (hnan f hmem), List.append_nil]

/-- A run in which no rule comes to stand that did not stand before changes nothing. -/
theorem Quiet.foldlM_follow {more : List Rule} (hc : Rule.Concord names rules)
    (hk : ∀ f ∈ fields, f.value.Keyed) (hnan : ∀ f ∈ fields, f.value ≠ .double .nan)
    (hsub : more ⊆ rules) (hsuited : o.Suited names rules) (h : o.Quiet fields)
    (hrun : more.foldlM follow o = .ok o')
    (hold : ∀ r ∈ more, r.StandsIn names o'.fields → r.StandsIn names fields) :
    o'.Quiet fields := by
  induction more generalizing o with
  | nil =>
    cases hrun
    exact h
  | cons r more ih =>
    rw [List.foldlM_cons] at hrun
    obtain ⟨p, hp, hrun⟩ := Fault.bind_eq_ok.mp hrun
    obtain ⟨hr, hsub⟩ := List.cons_subset.mp hsub
    obtain ⟨hr_old, hold⟩ := List.forall_mem_cons.mp hold
    have hsuited' : p.Suited names rules := hsuited.follow hc hr hp
    refine ih hsub hsuited' ?_ hrun hold
    unfold Outcome.follow at hp
    obtain ⟨met, -, hp⟩ := Fault.bind_eq_ok.mp hp
    cases met with
    | false =>
      cases hp
      exact h
    | true =>
      have hst : r.StandsIn names p.fields := standsIn_of_enforce hc hsuited hr hp
      -- what stands after the rule stands to the end, so it stood at the start
      have hend : r.StandsIn names o'.fields := standsIn_foldlM hc hsub hsuited' hr hst hrun
      have hn : fields.map (·.name) = names := by
        rw [← h.1]
        exact hsuited.names_eq
      exact h.enforce hn hk hnan (hr_old hend) hp

end Outcome

namespace Rule

/-- What fields need for a run to give an answer and to count its changes right. -/
structure Ready (names : List String) (fields : List Field) : Prop where
  names_eq : fields.map (·.name) = names
  writable : Field.AllWritable fields
  keyed : ∀ f ∈ fields, f.value.Keyed
  ne_nan : ∀ f ∈ fields, f.value ≠ .double .nan

theorem Ready.step (h : Ready names o.fields) (hs : Outcome.Step r o o') :
    Ready names o'.fields := by
  have hnames := hs.names_eq.trans h.names_eq
  obtain @⟨t, i, f, g, -, -, hf, hg⟩ := hs
  have hmem : f ∈ o.fields := List.mem_of_getElem? hf
  have hb := Clause.becomes_of_enforceOn hg
  obtain ⟨g', hg', hwritable⟩ := t.exists_enforceOn (h.writable f hmem)
  rw [hg] at hg'
  cases hg'
  have hset : ∀ {P : Field → Prop}, (∀ f ∈ o.fields, P f) → P g →
      ∀ f' ∈ o.fields.set i g, P f' := by
    intro P hall hP f' hf'
    rcases List.mem_or_eq_of_mem_set hf' with hf' | rfl
    · exact hall f' hf'
    · exact hP
  exact ⟨hnames, hset h.writable hwritable, hset h.keyed (hb.keyed (h.keyed f hmem)),
    hset h.ne_nan fun hv => h.ne_nan f hmem (hb.eq_nan hv)⟩

theorem Ready.apply (h : Ready names fields) (ho : Rule.apply fields rules = .ok o) :
    Ready names o.fields :=
  apply_induct (P := fun o => Ready names o.fields) ho h fun _ _ _ _ hs hp => hp.step hs

theorem fieldsAfter_succ (h : Rule.apply fields rules = .ok o) (n : ℕ) :
    fieldsAfter rules fields (n + 1) = fieldsAfter rules o.fields n := by
  induction n with
  | zero =>
    simp only [fieldsAfter, bind, Except.bind, h]
    rfl
  | succ n ih => rw [fieldsAfter, ih, fieldsAfter]

theorem fieldsAfter_eq_of_succ {settled : List Field} {N : ℕ} (h : Rule.apply fields rules = .ok o)
    (hafter : ∀ n, N ≤ n → fieldsAfter rules o.fields n = .ok settled) {n : ℕ} (hn : N + 1 ≤ n) :
    fieldsAfter rules fields n = .ok settled := by
  obtain ⟨m, rfl⟩ : ∃ m, n = m + 1 := ⟨n - 1, by omega⟩
  rw [fieldsAfter_succ h]
  exact hafter m (by omega)

/-- Rules that change nothing in a run change nothing in the runs after it. -/
theorem fieldsAfter_of_quiet (h : Rule.apply fields rules = .ok o) (hq : o.Quiet fields) (n : ℕ) :
    fieldsAfter rules fields n = .ok fields := by
  induction n with
  | zero => rfl
  | succ n ih => rw [fieldsAfter_succ h, hq.1, ih]

/-- The targets that reach the field at a position. -/
def targetsAt (names : List String) (rules : List Rule) (i : ℕ) : List Clause :=
  (rules.flatMap (·.targets)).filter fun t => decide (i ∈ Field.reach names t.name)

/-- How much the rules can still change in each field. -/
def unrest (names : List String) (rules : List Rule) (fields : List Field) :
    Fin names.length → (ℕ ×ₗ ℕ) ×ₗ ℕ := fun i =>
  match fields[i.val]? with
  | some f => f.unrest (targetsAt names rules i)
  | none => toLex (toLex (0, 0), 0)

/-- A step changes nothing or leaves less to change. -/
theorem unrest_step (hc : Concord names rules) (hr : r ∈ rules) (h : Ready names o.fields)
    (hs : Outcome.Step r o o') : o'.fields = o.fields ∧ o'.changes = o.changes ∨
      unrest names rules o'.fields < unrest names rules o.fields := by
  obtain @⟨t, i, f, g, ht, hi, hf, hg⟩ := hs
  obtain ⟨hlt, hget⟩ := List.getElem?_eq_some_iff.mp hf
  have hmem : f ∈ o.fields := List.mem_of_getElem? hf
  dsimp only
  by_cases hgf : g = f
  · left
    rw [hgf, Field.changesTo_self (h.keyed f hmem) (h.ne_nan f hmem), List.append_nil, ← hget,
      List.set_getElem_self]
    exact ⟨rfl, rfl⟩
  · right
    rw [h.names_eq] at hi
    have hlength : o.fields.length = names.length := by rw [← h.names_eq, List.length_map]
    have hat : t ∈ targetsAt names rules i :=
      List.mem_filter.mpr ⟨List.mem_flatMap.mpr ⟨r, hr, ht⟩, decide_eq_true hi⟩
    have hagree : ∀ s ∈ targetsAt names rules i, ∀ t ∈ targetsAt names rules i,
        s.agrees t = true := by
      intro s hs t ht
      obtain ⟨hs, hsi⟩ := List.mem_filter.mp hs
      obtain ⟨ht, hti⟩ := List.mem_filter.mp ht
      exact hc s hs t ht i (of_decide_eq_true hsi) (of_decide_eq_true hti)
    have hless := Field.unrest_lt hagree hat (h.writable f hmem) hg hgf
    have hlt : unrest names rules (o.fields.set i g) ⟨i, hlength ▸ hlt⟩ <
        unrest names rules o.fields ⟨i, hlength ▸ hlt⟩ := by
      simpa [unrest, hf, hlt, hget] using hless
    refine Pi.lt_def.mpr ⟨fun j => ?_, _, hlt⟩
    by_cases hij : i = j.val
    · subst hij
      exact hlt.le
    · simp [unrest, List.getElem?_set_ne hij]

/-- A run of rules that agree is quiet or leaves less to change. -/
theorem quiet_or_unrest_lt (hc : Concord names rules) (h : Ready names fields)
    (ho : Rule.apply fields rules = .ok o) :
    o.Quiet fields ∨ unrest names rules o.fields < unrest names rules fields := by
  refine (apply_induct (P := fun o => Ready names o.fields ∧ (o.Quiet fields ∨
    unrest names rules o.fields < unrest names rules fields)) ho ⟨h, .inl ⟨rfl, rfl⟩⟩ ?_).2
  rintro r hr p p' hs ⟨hp, hquiet⟩
  refine ⟨hp.step hs, ?_⟩
  rcases unrest_step hc hr hp hs with ⟨hfields, hchanges⟩ | hlt
  · rw [Outcome.Quiet, hfields, hchanges]
    exact hquiet
  · right
    rcases hquiet with ⟨hfields, -⟩ | hlt'
    · exact hfields ▸ hlt
    · exact hlt.trans hlt'

/-- Rules that agree have nothing left to change after some number of runs. -/
theorem exists_quiet_of_unrest (hc : Concord names rules) (h : Ready names fields) :
    ∃ settled o N, (∀ n, N ≤ n → fieldsAfter rules fields n = .ok settled) ∧
      Rule.apply settled rules = .ok o ∧ o.Quiet settled := by
  induction hu : unrest names rules fields using WellFoundedLT.induction generalizing fields with
  | ind u ih =>
    obtain ⟨o, ho, -⟩ := exists_apply h.writable rules
    rcases quiet_or_unrest_lt hc h ho with hq | hlt
    · exact ⟨fields, o, 0, fun n _ => fieldsAfter_of_quiet ho hq n, ho, hq⟩
    · obtain ⟨settled, o', N, hafter, ho', hq⟩ := ih _ (hu ▸ hlt) (h.apply ho) rfl
      exact ⟨settled, o', N + 1, fun n => fieldsAfter_eq_of_succ ho hafter, ho', hq⟩

/-- Of rules that agree and find lists for the items that they ask for, those that do not stand yet
bound the number of runs that change something. -/
theorem exists_quiet_of_left {fields : List Field} {left : List Rule}
    (hc : Concord names rules) (h : Ready names fields)
    (hsuited : Outcome.Suited names rules { fields })
    (hleft : ∀ r ∈ rules, r.StandsIn names fields ∨ r ∈ left) :
    ∃ settled o, (∀ n, left.length ≤ n → fieldsAfter rules fields n = .ok settled) ∧
      Rule.apply settled rules = .ok o ∧ o.Quiet settled := by
  obtain ⟨o, ho, -⟩ := exists_apply h.writable rules
  have hrun := ho
  rw [apply_eq] at hrun
  by_cases hold : ∀ r ∈ rules, r.StandsIn names o.fields → r.StandsIn names fields
  · have hq : o.Quiet fields :=
      Outcome.Quiet.foldlM_follow hc h.keyed h.ne_nan (List.Subset.refl _) hsuited ⟨rfl, rfl⟩
        hrun hold
    exact ⟨fields, o, fun n _ => fieldsAfter_of_quiet ho hq n, ho, hq⟩
  · -- a rule has come to stand, so there is one less that does not
    simp only [not_forall] at hold
    obtain ⟨r, hr, hst, hnew⟩ := hold
    have hmem : r ∈ left := (hleft r hr).resolve_left hnew
    have hlength : (left.erase r).length + 1 = left.length := List.length_erase_add_one hmem
    have hleft' : ∀ r' ∈ rules, r'.StandsIn names o.fields ∨ r' ∈ left.erase r := by
      intro r' hr'
      by_cases heq : r' = r
      · exact .inl (heq ▸ hst)
      · rcases hleft r' hr' with hst' | hmem'
        · exact .inl
            (Outcome.standsIn_foldlM hc (List.Subset.refl _) hsuited hr' hst' hrun)
        · exact .inr ((List.mem_erase_of_ne heq).mpr hmem')
    have hsuited' : o.Suited names rules :=
      Fault.foldlM_induct hrun hsuited fun _ _ r hr hp hf => hp.follow hc hr hf
    obtain ⟨settled, o', hafter, ho', hq⟩ :=
      exists_quiet_of_left hc (h.apply ho) ⟨hsuited'.names_eq, hsuited'.suits⟩ hleft'
    rw [← hlength]
    exact ⟨settled, o', fun n => fieldsAfter_eq_of_succ ho hafter, ho', hq⟩
termination_by left.length

/-- Rules whose targets agree wherever they reach a common field never keep undoing each other:
after some number of runs no run changes anything. As many runs as there are rules are enough if
targets on items find lists. -/
theorem exists_quiet (hw : Field.AllWritable fields) (hk : ∀ f ∈ fields, f.value.Keyed)
    (hnan : ∀ f ∈ fields, f.value ≠ .double .nan) (hc : Concord (fields.map (·.name)) rules) :
    ∃ settled o N, (∀ n, N ≤ n → fieldsAfter rules fields n = .ok settled) ∧
      Rule.apply settled rules = .ok o ∧ o.fields = settled ∧ o.changes = [] ∧
      ((∀ r ∈ rules, ∀ t ∈ r.targets, t.state = .contains →
        ∀ f ∈ Field.reached fields t.name, ∃ xs, f.value = .list xs) → N ≤ rules.length) := by
  have hready : Ready (fields.map (·.name)) fields := ⟨rfl, hw, hk, hnan⟩
  by_cases hlist : ∀ r ∈ rules, ∀ t ∈ r.targets, t.state = .contains →
      ∀ f ∈ Field.reached fields t.name, ∃ xs, f.value = .list xs
  · have hsuited : Outcome.Suited (fields.map (·.name)) rules { fields } := by
      refine ⟨rfl, fun t ht i hi f hf hstate => ?_⟩
      obtain ⟨r, hr, htr⟩ := List.mem_flatMap.mp ht
      obtain ⟨xs, hxs⟩ := hlist r hr t htr hstate f (List.mem_filterMap.mpr ⟨i, hi, hf⟩)
      have hwritable := hw f (List.mem_of_getElem? hf)
      rw [hxs] at hwritable
      exact ⟨xs, hxs, Value.writable_list.mp hwritable⟩
    obtain ⟨settled, o, hafter, ho, hq⟩ :=
      exists_quiet_of_left hc hready hsuited fun r hr => .inr hr
    exact ⟨settled, o, rules.length, hafter, ho, hq.1, hq.2, fun _ => le_rfl⟩
  · obtain ⟨settled, o, N, hafter, ho, hq⟩ := exists_quiet_of_unrest hc hready
    exact ⟨settled, o, N, hafter, ho, hq.1, hq.2, fun h => absurd h hlist⟩

/-- If `a` is set, `b` is not and the log has an item; if `b` is not set, `a` is and the log has
another item. -/
def balance : List Rule := [
  { conditions := some [⟨"a", .set none, false⟩],
    targets := [⟨"b", .set none, true⟩, ⟨"log", .contains "left", false⟩] },
  { conditions := some [⟨"b", .set none, true⟩],
    targets := [⟨"a", .set none, false⟩, ⟨"log", .contains "right", false⟩] }]

/-- A log with one item. -/
def ledger : Field :=
  { name := "log", value := .list [.text "left"], checked := some false }

/-- Two fields that are set, and the log. -/
def scales : List Field := [
  { name := "a", value := .text "x", checked := some true },
  { name := "b", value := .text "y", checked := some true }, ledger]

theorem balance_quiet : (∃ r s, balance = [r, s] ∧ r.isContrapositive s = true) ∧
    ∃ settled o N, (∀ n, N ≤ n → fieldsAfter balance scales n = .ok settled) ∧
      Rule.apply settled balance = .ok o ∧ o.fields = settled ∧ o.changes = [] ∧
      N ≤ balance.length := by
  have hw : Field.AllWritable scales := by
    simp [Field.AllWritable, scales, ledger, Value.Writable, Value.WritableItems]
  have hk : ∀ f ∈ scales, f.value.Keyed := by
    simp [scales, ledger, Value.Keyed, Value.KeyedItems]
  have hlog : ∀ r ∈ balance, ∀ t ∈ r.targets, t.state = .contains →
      ∀ f ∈ Field.reached scales t.name, f = ledger := by decide
  have hc : Concord (scales.map (·.name)) balance := by decide
  obtain ⟨settled, o, N, hafter, ho, hfields, hchanges, hbound⟩ :=
    exists_quiet hw hk (by decide) hc
  refine ⟨⟨_, _, rfl, by decide⟩, settled, o, N, hafter, ho, hfields, hchanges, hbound ?_⟩
  intro r hr t ht hstate f hf
  rw [hlog r hr t ht hstate f hf]
  exact ⟨_, rfl⟩

/-- If `a` and `c` are set, neither `b` nor `c` is, and if `b` is not set, `a` and `c` are. -/
def tussle : List Rule := [
  { conditions := some [⟨"a", .set none, false⟩, ⟨"c", .set none, false⟩],
    targets := [⟨"b", .set none, true⟩, ⟨"c", .set none, true⟩] },
  { conditions := some [⟨"b", .set none, true⟩],
    targets := [⟨"a", .set none, false⟩, ⟨"c", .set none, false⟩] }]

/-- Three fields of which the second is not checked. -/
def rope : List Field := [
  { name := "a", value := .text "x", checked := some true },
  { name := "b", value := .text "x", checked := some false },
  { name := "c", value := .text "x", checked := some true }]

theorem isValid_tussle : (Check.ofRules {} tussle).isValid = true := by
  have hlegible : ∀ r ∈ tussle, ∀ name ∈ r.names, Dependency.Legible name := by decide
  have hcycles : (Dependency.ofRules tussle).cycles = [["a", "b", "a"], ["b", "c", "b"]] := by
    decide
  have hin : ∀ p ∈ [["a", "b", "a"], ["b", "c", "b"]], ∀ name ∈ p, ∃ q ∈ Grouping.pairs tussle,
      q.1.isContrapositive q.2 = true ∧ (name ∈ q.1.names ∨ name ∈ q.2.names) := by decide
  have hharmful : Dependency.harmful (Dependency.cycleMessages tussle) tussle = [] := by
    refine List.eq_nil_iff_forall_not_mem.mpr fun e he => ?_
    obtain ⟨p, hp, ⟨name, hname, hout⟩, -⟩ := (Dependency.mem_harmful hlegible).mp he
    rw [hcycles] at hp
    exact hout (Dependency.mem_contrapositiveNames.mpr (hin p hp name hname))
  have hcontradictions : contradictions tussle = [] := by
    refine contradictions_eq_nil_iff.mpr fun r hr r' hr' hsignature => ?_
    -- the two rules have conditions of different number, so only a rule and itself are compared
    have hlength : r.conditionList.length = r'.conditionList.length := by
      simpa [signature] using congrArg List.length hsignature
    have halike : ∀ r ∈ tussle, ∀ r' ∈ tussle,
        r.conditionList.length = r'.conditionList.length → ∀ s ∈ r.targets, ∀ t ∈ r'.targets,
          s.name = t.name → s.conflict? t = none := by decide
    exact halike r hr r' hr' hlength
  have hdisputes : disputes tussle = [] := by decide
  simp [Check.isValid, Check.ofRules, hharmful, hcontradictions, hdisputes]

/-- Two contrapositive rules that pass the check and undo each other in every run. -/
theorem tussle_never_quiet :
    (∃ r s, tussle = [r, s] ∧ r.isContrapositive s = true) ∧
    (Check.ofRules {} tussle).isValid = true ∧
    ∀ n, ∃ o, fieldsAfter tussle rope n = .ok rope ∧ Rule.apply rope tussle = .ok o ∧
      o.changes ≠ [] := by
  obtain ⟨o, ho, hfields, hchanges⟩ : ∃ o, Rule.apply rope tussle = .ok o ∧ o.fields = rope ∧
      o.changes ≠ [] := ⟨_, rfl, rfl, by decide⟩
  refine ⟨⟨_, _, rfl, by decide⟩, isValid_tussle, fun n => ⟨o, ?_, ho, hchanges⟩⟩
  induction n with
  | zero => rfl
  | succ n ih => rw [fieldsAfter_succ ho, hfields, ih]

end Rule

end FieldRules
