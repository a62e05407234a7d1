import FieldRules.Proofs.Run.Unconditional

/-! A target that sets fields, asked afterwards as a condition. Enforcing it and asking for it find
the same fields by its name. A group meets a condition when all its fields do, so the opposite of a
condition holds of a group as soon as it has a field that does not meet it. -/
namespace FieldRules

variable {fields : List Field} {f : Field} {c d : Clause} {r : Rule} {o : Outcome}

theorem Field.mem_reached_iff {name : String} (hn : (fields.map (·.name)).Nodup) :
    f ∈ reached fields name ↔
      f ∈ fields ∧ Path.Addresses (fields.map (·.name)) name f.name := by
  have hname : ∀ i : ℕ, fields[i]? = some f → (fields.map (·.name))[i]? = some f.name := by
    intro i hi
    rw [List.getElem?_map, hi, Option.map_some]
  unfold reached
  rw [List.mem_filterMap]
  constructor
  · rintro ⟨i, hi, hf⟩
    exact ⟨List.mem_of_getElem? hf, (mem_reach_iff hn (hname i hf)).mp hi⟩
  · rintro ⟨hf, haddress⟩
    obtain ⟨i, hi⟩ := List.mem_iff_getElem?.mp hf
    exact ⟨i, (mem_reach_iff hn (hname i hi)).mpr haddress, hi⟩

namespace Clause

/-- A condition holds when there is a field to ask, and each is as the condition wants it. -/
theorem holds_of_meets (hne : Field.reached fields c.name ≠ [])
    (h : ∀ f ∈ Field.reached fields c.name, f.meets c.demand = .ok !c.negated) :
    c.holds fields = .ok true := by
  have hall : (Field.reached fields c.name).allM (·.meets c.demand) = .ok !c.negated := by
    rw [Fault.allM_eq_ok h]
    cases c.negated with
    | false => simp
    | true => simpa using List.exists_mem_of_ne_nil _ hne
  unfold holds
  rw [hall]
  cases c.negated <;> rfl

/-- A field on which a target has been enforced meets its demand, or, when the target asks for the
opposite, does not. Being set takes a value as well as the mark. -/
theorem meets_reset (hd : d.state ≠ .contains)
    (hvalue : d.state = .set → d.negated = false → f.value ≠ .text "") :
    (d.reset.on f).meets d.demand = .ok !d.negated := by
  obtain ⟨name, demand, negated⟩ := d
  cases negated with
  | true =>
    cases demand with
    | set note => rfl
    | setToValue value => rfl
    | contains item => exact absurd rfl hd
  | false =>
    cases demand with
    | set note =>
      have hne : (f.value != .text "") = true := bne_iff_ne.mpr (hvalue rfl rfl)
      simp [Field.meets, Field.isChecked, reset, Reset.on, Demand.fits, hne]
    | setToValue value =>
      simp [Field.meets, Field.isChecked, reset, Reset.on, Demand.fits, Value.display, bind,
        Except.bind, pure, Except.pure]
    | contains item => exact absurd rfl hd

end Clause

namespace Rule

/-- A rule without conditions and with one target leaves on every field that the target reaches what
the target leaves. -/
theorem reached_apply_singleton (hfree : r.isUnconditional = true) (hr : r.targets = [d])
    (hd : d.state ≠ .contains) (h : Rule.apply fields [r] = .ok o) :
    Field.reached o.fields d.name = (Field.reached fields d.name).map d.reset.on := by
  have hnames : o.fields.map (·.name) = fields.map (·.name) := names_apply h
  have hset : ∀ t ∈ r.targets, t.state ≠ .contains := by simpa [hr] using hd
  have henforce : Outcome.enforce { fields } r = .ok o := by
    rw [← follow_eq_enforce hfree]
    simpa [apply_eq] using h
  have hreset : ∀ i ∈ Field.reach (fields.map (·.name)) d.name,
      o.fields[i]? = fields[i]?.map d.reset.on := by
    intro i hi
    have hat : r.resetAt (fields.map (·.name)) i = d.reset := by
      simp [resetAt, hr, Clause.resetAt, hi, Reset.followedBy]
    rw [Outcome.fields_enforce hset rfl henforce i, hat]
  unfold Field.reached
  rw [hnames, List.map_filterMap]
  exact List.filterMap_congr hreset

/-- A target that sets fields holds as a condition after a rule without conditions has enforced it,
if there is a field for it, and if those that are only to be set have a value. -/
theorem exists_apply_holds (hn : (fields.map (·.name)).Nodup) (hfree : r.isUnconditional = true)
    (hr : r.targets = [d]) (hd : d.state ≠ .contains)
    (hreach : ∃ f ∈ fields, Path.Addresses (fields.map (·.name)) d.name f.name)
    (hvalue : d.state = .set → d.negated = false → ∀ f ∈ fields,
      Path.Addresses (fields.map (·.name)) d.name f.name → f.value ≠ .text "") :
    ∃ o, Rule.apply fields [r] = .ok o ∧ d.holds o.fields = .ok true := by
  have hfree' : ∀ s ∈ [r], s.isUnconditional = true := by simpa using hfree
  have hset : ∀ s ∈ [r], ∀ t ∈ s.targets, t.state ≠ .contains := by simpa [hr] using hd
  obtain ⟨o, ho⟩ := exists_apply_unconditional fields hfree' hset
  refine ⟨o, ho, ?_⟩
  have hreached := reached_apply_singleton hfree hr hd ho
  apply Clause.holds_of_meets
  · obtain ⟨f, hf, haddress⟩ := hreach
    have hmem : f ∈ Field.reached fields d.name := (Field.mem_reached_iff hn).mpr ⟨hf, haddress⟩
    rw [hreached]
    simpa using List.ne_nil_of_mem hmem
  · rw [hreached, List.forall_mem_map]
    intro f hf
    obtain ⟨hmem, haddress⟩ := (Field.mem_reached_iff hn).mp hf
    exact Clause.meets_reset hd fun hset hplain => hvalue hset hplain f hmem haddress

/-- A field with a value, and a group with a value in each of its fields. -/
def switchboard : List Field := [
  { name := "label", value := .text "east" },
  { name := "line.first", value := .int 1, checked := some false },
  { name := "line.second", value := .list [] }]

/-- Sets a whole group. -/
def connection : Clause :=
  ⟨"line", .set none, false⟩

theorem switchboard_holds : (switchboard.map (·.name)).Nodup ∧
    (∃ f ∈ switchboard, Path.Addresses (switchboard.map (·.name)) connection.name f.name) ∧
    (∀ f ∈ switchboard, Path.Addresses (switchboard.map (·.name)) connection.name f.name →
      f.value ≠ .text "") ∧
    ∃ o, Rule.apply switchboard [{ targets := [connection] }] = .ok o ∧
      connection.holds o.fields = .ok true := by
  have hn : (switchboard.map (·.name)).Nodup := by decide
  have hreach : ∃ f ∈ switchboard,
      Path.Addresses (switchboard.map (·.name)) connection.name f.name := by decide
  have hvalue : ∀ f ∈ switchboard,
      Path.Addresses (switchboard.map (·.name)) connection.name f.name → f.value ≠ .text "" := by
    decide
  exact ⟨hn, hreach, hvalue,
    exists_apply_holds hn rfl rfl (by decide) hreach fun _ _ => hvalue⟩

end Rule

end FieldRules
