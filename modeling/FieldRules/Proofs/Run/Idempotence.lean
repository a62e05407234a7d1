import FieldRules.Proofs.Run.Reach
import FieldRules.Proofs.Run.Reset
import FieldRules.Proofs.Run.Total

/-! Rules that set fields, run a second time over what the first run left. Where no rule changes a
field that it reads or that a rule before it has read, the second run keeps step with the first:
the same rules hold, and each resets the fields as before. -/
namespace FieldRules

/-- A rule spares another if none of its targets reaches a field that a condition of the other
reads. -/
def Rule.Spares (names : List String) (r r' : Rule) : Prop :=
  ∀ t ∈ r.targets, ∀ c ∈ r'.conditionList,
    ∀ i ∈ Field.reach names t.name, i ∉ Field.reach names c.name

instance (names : List String) (r r' : Rule) : Decidable (r.Spares names r') :=
  inferInstanceAs (Decidable (∀ t ∈ r.targets, ∀ c ∈ r'.conditionList,
    ∀ i ∈ Field.reach names t.name, i ∉ Field.reach names c.name))

namespace Outcome

variable {start left : List Field} {names : List String} {r : Rule} {rules : List Rule}
  {R : ℕ → Reset} {o o' p p' : Outcome}

/-- Two runs, one over `start` and one over `left`, have reset the fields in the same way so far. -/
structure InStep (start left : List Field) (R : ℕ → Reset) (o p : Outcome) : Prop where
  first : ∀ i, o.fields[i]? = start[i]?.map (R i).on
  second : ∀ i, p.fields[i]? = left[i]?.map (R i).on

namespace InStep

theorem init (start left : List Field) :
    InStep start left (fun _ => {}) { fields := start } { fields := left } where
  first i := by simp
  second i := by simp

/-- What was left at a position by the first run when it was here, the second one finds there. -/
theorem getElem?_eq (h : InStep start left R o p) {i : ℕ} (hi : left[i]? = o.fields[i]?) :
    o.fields[i]? = p.fields[i]? := by
  rw [h.second, hi, h.first, Option.map_map, Reset.on_comp_on]

theorem follow (h : InStep start left R o p) (ht : ∀ t ∈ r.targets, t.state ≠ .contains)
    (hn : o.fields.map (·.name) = names) (hn' : p.fields.map (·.name) = names)
    (hread : ∀ c ∈ r.conditionList, ∀ i ∈ Field.reach names c.name, left[i]? = o.fields[i]?)
    (ho : o.follow r = .ok o') (hp : p.follow r = .ok p') :
    ∃ R' : ℕ → Reset, InStep start left R' o' p' := by
  obtain ⟨met, hmet, ho'⟩ := fields_follow ht hn ho
  obtain ⟨met', hmet', hp'⟩ := fields_follow ht hn' hp
  have hsame : r.applies o.fields = r.applies p.fields :=
    Rule.applies_congr hn hn' fun c hc i hi => h.getElem?_eq (hread c hc i hi)
  rw [hmet, hmet'] at hsame
  cases hsame
  refine ⟨fun i => (R i).followedBy (if met then r.resetAt names i else {}), ?_, ?_⟩
  · intro i
    rw [ho', h.first, Option.map_map, Reset.on_followedBy]
  · intro i
    rw [hp', h.second, Option.map_map, Reset.on_followedBy]

/-- At the end of both runs nothing has changed since the end of the first. -/
theorem fields_eq (h : InStep start o'.fields R o p)
    (ht : ∀ r ∈ rules, ∀ t ∈ r.targets, t.state ≠ .contains)
    (hn : o.fields.map (·.name) = names) (hn' : p.fields.map (·.name) = names)
    (hself : ∀ r ∈ rules, r.Spares names r)
    (hlater : rules.Pairwise fun r later => later.Spares names r)
    (ho : rules.foldlM Outcome.follow o = .ok o') (hp : rules.foldlM Outcome.follow p = .ok p') :
    p'.fields = o'.fields := by
  induction rules generalizing R o p with
  | nil =>
    cases ho
    cases hp
    exact List.ext_getElem? fun i => (h.getElem?_eq rfl).symm
  | cons r rules ih =>
    -- what the rule reads is not changed from here to the end of the first run
    have hread : ∀ c ∈ r.conditionList, ∀ i ∈ Field.reach names c.name,
        o'.fields[i]? = o.fields[i]? := by
      intro c hc i hi
      refine fields_eq_of_not_reached hn (fun r' hr' t ht' hreach => ?_) ho
      have hspares : r'.Spares names r := by
        rcases List.mem_cons.mp hr' with rfl | hr'
        · exact hself _ hr'
        · exact List.rel_of_pairwise_cons hlater hr'
      exact hspares t ht' c hc i hreach hi
    rw [List.foldlM_cons] at ho hp
    obtain ⟨o₁, ho₁, ho⟩ := Fault.bind_eq_ok.mp ho
    obtain ⟨p₁, hp₁, hp⟩ := Fault.bind_eq_ok.mp hp
    obtain ⟨htr, ht⟩ := List.forall_mem_cons.mp ht
    obtain ⟨R', h'⟩ := h.follow htr hn hn' hread ho₁ hp₁
    exact ih h' ht ((names_follow ho₁).trans hn) ((names_follow hp₁).trans hn')
      (List.forall_mem_cons.mp hself).2 hlater.of_cons ho hp

end InStep

end Outcome

namespace Rule

variable {fields : List Field} {rules : List Rule}

/-- Rules that set fields change nothing when they are run again over what they left, if no target
of a rule reaches a field that a condition of the same rule or of one before it reads. -/
theorem apply_idem (hw : Field.AllWritable fields)
    (hset : ∀ r ∈ rules, ∀ t ∈ r.targets, t.state ≠ .contains)
    (hself : ∀ r ∈ rules, r.Spares (fields.map (·.name)) r)
    (hlater : rules.Pairwise fun r later => later.Spares (fields.map (·.name)) r) :
    ∃ o o', Rule.apply fields rules = .ok o ∧ Rule.apply o.fields rules = .ok o' ∧
      o'.fields = o.fields := by
  obtain ⟨o, ho, hwo⟩ := exists_apply hw rules
  obtain ⟨o', ho', -⟩ := exists_apply hwo rules
  refine ⟨o, o', ho, ho', ?_⟩
  have hn : o.fields.map (·.name) = fields.map (·.name) := names_apply ho
  rw [apply_eq] at ho ho'
  exact (Outcome.InStep.init fields o.fields).fields_eq hset rfl hn hself hlater ho ho'

/-- The first rule addresses a group, the second reads it, and the third takes back a part of what
the second did. -/
def cascade : List Rule := [
  { conditions := some [⟨"mode", .set none, false⟩],
    targets := [⟨"net", .setToValue "auto", false⟩] },
  { conditions := some [⟨"net", .setToValue "auto", false⟩, ⟨"proxy", .set none, true⟩],
    targets := [⟨"log", .setToValue "full", false⟩] },
  { targets := [⟨"log", .set none, true⟩] }]

/-- A mode, a group of two fields, and a log. -/
def panel : List Field := [
  { name := "mode", value := .text "on", checked := some true },
  { name := "net.host", value := .list [.text "a", .bool true] },
  { name := "net.port", value := .text "" },
  { name := "log", checked := some true }]

theorem cascade_idem : ∃ o o', Rule.apply panel cascade = .ok o ∧
    Rule.apply o.fields cascade = .ok o' ∧ o'.fields = o.fields := by
  have hw : Field.AllWritable panel := by
    simp [Field.AllWritable, panel, Value.Writable, Value.WritableItems]
  exact apply_idem hw (by decide) (by decide) (by decide)

end Rule

end FieldRules
