import FieldRules.Proofs.Run.Sequel
import FieldRules.Proofs.Run.Total
import FieldRules.Proofs.Run.Unconditional

/-! Fields that a rule without conditions requires. The rule checks such a field, and only a target
that is negated could take the mark away again. -/
namespace FieldRules

variable {names : List String} {rules : List Rule} {r : Rule} {t : Clause} {name : String} {k : ℕ}

namespace Clause

/-- Whether the target checks whatever field it is enforced on: it is not negated, and does not ask
for an empty item. -/
def Checks (t : Clause) : Prop :=
  t.negated = false ∧ t.demand ≠ .contains ""

theorem Checks.enforceOn {f g : Field} (ht : t.Checks) (h : t.enforceOn f = .ok g) :
    g.checked = some true := by
  obtain ⟨name, demand, negated⟩ := t
  obtain ⟨hplain, hitem⟩ := ht
  dsimp only at hplain hitem
  subst hplain
  cases demand with
  | set note =>
    cases h
    rfl
  | setToValue v =>
    cases h
    rfl
  | contains item =>
    have hitem : item ≠ "" := fun hnil => hitem (hnil ▸ rfl)
    rw [Clause.enforceOn, Field.enforce, if_neg hitem, if_neg Bool.false_ne_true] at h
    obtain ⟨v, -, h⟩ := Fault.bind_eq_ok.mp h
    cases h
    rfl

end Clause

/-- All targets of the rule that reach the field at a position check it. -/
def Rule.ChecksAt (names : List String) (k : ℕ) (r : Rule) : Prop :=
  ∀ t ∈ r.targets, k ∈ Field.reach names t.name → t.Checks

namespace Outcome

variable {o o' : Outcome}

/-- The field at a position, if there is one, is checked. -/
def CheckedAt (k : ℕ) (o : Outcome) : Prop :=
  ∀ f ∈ o.fields[k]?, f.checked = some true

theorem CheckedAt.step (h : o.CheckedAt k) (hr : r.ChecksAt names k)
    (hn : o.fields.map (·.name) = names) (hs : Step r o o') : o'.CheckedAt k := by
  obtain @⟨t, i, f, g, ht, hi, hf, hg⟩ := hs
  intro f' hf'
  rcases Field.of_getElem?_set hf' with ⟨rfl, rfl⟩ | hf'
  · exact (hr t ht (hn ▸ hi)).enforceOn hg
  · exact h f' hf'

theorem CheckedAt.enforceTarget (h : o.CheckedAt k) (hr : r.ChecksAt names k)
    (hn : o.fields.map (·.name) = names) (ht : t ∈ r.targets)
    (he : enforceTarget r o t = .ok o') : o'.CheckedAt k :=
  (enforceTarget_induct (P := fun p => p.fields.map (·.name) = names ∧ p.CheckedAt k) ht he ⟨hn, h⟩
    fun _ _ hs hp => ⟨hs.names_eq.trans hp.1, hp.2.step hr hp.1 hs⟩).2

theorem CheckedAt.follow (h : o.CheckedAt k) (hr : r.ChecksAt names k)
    (hn : o.fields.map (·.name) = names) (he : o.follow r = .ok o') : o'.CheckedAt k :=
  (follow_induct (P := fun p => p.fields.map (·.name) = names ∧ p.CheckedAt k) he ⟨hn, h⟩
    fun _ _ hs hp => ⟨hs.names_eq.trans hp.1, hp.2.step hr hp.1 hs⟩).2

/-- A target checks the only field that it reaches. -/
theorem checkedAt_of_enforceTarget (hr : r.ChecksAt names k) (hn : o.fields.map (·.name) = names)
    (ht : t ∈ r.targets) (hreach : Field.reach names t.name = [k])
    (he : enforceTarget r o t = .ok o') : o'.CheckedAt k := by
  unfold enforceTarget at he
  rw [hn, hreach, List.foldlM_cons] at he
  obtain ⟨p, hp, he⟩ := Fault.bind_eq_ok.mp he
  cases he
  rcases enforceAt_cases hp with ⟨hnone, rfl⟩ | ⟨f, g, hf, hg, rfl⟩
  · simp [CheckedAt, hnone]
  · have hk : k ∈ Field.reach names t.name := hreach ▸ List.mem_singleton_self k
    have hlt : k < o.fields.length := (List.getElem?_eq_some_iff.mp hf).1
    simpa [CheckedAt, hlt] using (hr t ht hk).enforceOn hg

/-- A rule checks a field that one of its targets alone reaches. -/
theorem checkedAt_of_enforce (hr : r.ChecksAt names k) (hn : o.fields.map (·.name) = names)
    (ht : t ∈ r.targets) (hreach : Field.reach names t.name = [k]) (he : o.enforce r = .ok o') :
    o'.CheckedAt k := by
  refine (Fault.foldlM_each (P := fun p : Outcome => p.fields.map (·.name) = names)
    (Q := fun u p => Field.reach names u.name = [k] → p.CheckedAt k) he hn ?_ ?_ ?_).2 t ht hreach
  · exact fun p p' u hu hp h => (names_enforceTarget hu h).trans hp
  · exact fun p p' u hu hp h hreach => checkedAt_of_enforceTarget hr hp hu hreach h
  · exact fun p p' u hu v hv hp h hchecked hreach => (hchecked hreach).enforceTarget hr hp hu h

end Outcome

/-- A rule without conditions checks a field in a run where no target takes the mark away. -/
theorem Rule.checkedAt_apply {fields : List Field} {o : Outcome}
    (hn : fields.map (·.name) = names) (hall : ∀ r ∈ rules, r.ChecksAt names k) (hr : r ∈ rules)
    (hfree : r.isUnconditional = true) (ht : t ∈ r.targets)
    (hreach : Field.reach names t.name = [k]) (h : Rule.apply fields rules = .ok o) :
    o.CheckedAt k := by
  rw [apply_eq] at h
  refine (Fault.foldlM_each (P := fun p : Outcome => p.fields.map (·.name) = names)
    (Q := fun s p => s = r → p.CheckedAt k) h hn ?_ ?_ ?_).2 r hr rfl
  · exact fun p p' s hs hp h => (Outcome.names_follow h).trans hp
  · rintro p p' s hs hp h rfl
    rw [follow_eq_enforce hfree] at h
    exact Outcome.checkedAt_of_enforce (hall s hs) hp ht hreach h
  · exact fun p p' s hs s' hs' hp h hchecked heq => (hchecked heq).follow (hall s hs) hp h

/-- Where names differ and no target asks for an empty item, a field that a rule without conditions
requires is checked after a run, unless a target that is negated addresses it. -/
theorem Run.checked_of_isRequired {fields : List Field} (hn : (fields.map (·.name)).Nodup)
    (hname : name ∈ fields.map (·.name))
    (hitems : ∀ r ∈ rules, ∀ t ∈ r.targets, t.demand ≠ .contains "")
    (hrequired : Rule.isRequired name rules = true)
    (hplain : ∀ r ∈ rules, ∀ t ∈ r.targets, t.negated = true →
      ¬ Path.Addresses (fields.map (·.name)) t.name name)
    (trigger : Option Trigger) (before : Option (List Field)) :
    (Field.AllWritable fields → ∃ o, (Run.of fields rules trigger before).outcome = .ok o) ∧
    ∀ o, (Run.of fields rules trigger before).outcome = .ok o →
      ∃ f ∈ o.fields, f.name = name ∧ f.checked = some true := by
  obtain ⟨k, hk⟩ := List.mem_iff_getElem?.mp hname
  obtain ⟨r, hr, hfree, t, ht, rfl, -⟩ : ∃ r ∈ rules, r.isUnconditional = true ∧
      ∃ t ∈ r.targets, t.name = name ∧ t.negated = false := by
    simpa [Rule.isRequired] using hrequired
  have hall : ∀ s ∈ rules, s.ChecksAt (fields.map (·.name)) k := by
    intro s hs u hu hreach
    have haddress := (Field.mem_reach_iff hn hk).mp hreach
    exact ⟨Bool.eq_false_iff.mpr fun hneg => hplain s hs u hu hneg haddress, hitems s hs u hu⟩
  refine ⟨fun hw => ?_, fun o ho => ?_⟩
  · obtain ⟨o, ho, -⟩ := Run.exists_after (o := { fields, changes := _ }) hw rules
    exact ⟨o, ho⟩
  · rw [Run.outcome_of] at ho
    obtain ⟨p, hp, rfl⟩ := Fault.map_eq_ok.mp ho
    have hchecked : p.CheckedAt k :=
      Rule.checkedAt_apply rfl hall hr hfree ht (Field.reach_eq_singleton hn hk) hp
    rw [← Rule.names_apply hp, List.getElem?_map] at hk
    obtain ⟨f, hf, hfname⟩ := Option.map_eq_some_iff.mp hk
    exact ⟨f, List.mem_of_getElem? hf, hfname, hchecked f hf⟩

/-- Two locks and an alarm. -/
def cellar : List Field := [
  { name := "lock.front", value := .text "open", checked := some false },
  { name := "lock.rear", value := .text "open", checked := some true },
  { name := "alarm", value := .text "on", checked := some true }]

/-- Bolts the lock in front, without conditions, and turns the alarm off. -/
def bolting : Rule where
  targets := [⟨"lock.front", .contains "bolted", false⟩, ⟨"alarm", .setToValue "on", true⟩]

/-- Shuts both locks once the one in front is bolted, and takes the mark of the other away. -/
def shutting : Rule where
  conditions := some [⟨"lock.front", .contains "bolted", false⟩]
  targets := [⟨"lock", .setToValue "shut", false⟩, ⟨"lock.rear", .set none, true⟩]

theorem cellar_checked : Rule.isRequired "lock.front" [bolting, shutting] = true ∧
    ∃ o, (Run.of cellar [bolting, shutting] none none).outcome = .ok o ∧
      ∃ f ∈ o.fields, f.name = "lock.front" ∧ f.checked = some true := by
  have hrequired : Rule.isRequired "lock.front" [bolting, shutting] = true := by decide
  have hn : (cellar.map (·.name)).Nodup := by decide
  have hw : Field.AllWritable cellar := by
    simp [Field.AllWritable, cellar, Value.Writable]
  obtain ⟨hok, hall⟩ := Run.checked_of_isRequired hn (by decide) (by decide) hrequired (by decide)
    none none
  obtain ⟨o, ho⟩ := hok hw
  exact ⟨hrequired, o, ho, hall o ho⟩

end FieldRules
