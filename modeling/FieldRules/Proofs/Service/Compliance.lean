import FieldRules.Proofs.Run.History
import FieldRules.Proofs.Run.Remnant
import FieldRules.Proofs.Service.Application
import FieldRules.Service.Compliance

/-! What a set of rules would change in a template, field by field: the differences between its
fields and the outcome of a run over them. Each has the reason of the run, but for a bare `nan` that
no rule has touched: it is reported, though nothing would be changed. -/
namespace FieldRules

/-- A property differs between two states of a field. A bare `nan` differs from itself. -/
def Field.Differs (f g : Field) (p : Property) : Prop :=
  f.get p ≠ g.get p ∨ p = .value ∧ f.value = .double .nan ∧ g.value = .double .nan

instance (f g : Field) (p : Property) : Decidable (f.Differs g p) :=
  inferInstanceAs (Decidable (_ ∨ _))

namespace Field

variable {f g : Field}

theorem differs_checked : f.Differs g .checked ↔ f.checked ≠ g.checked := by
  have hmark : f.get .checked = g.get .checked ↔ f.checked = g.checked := by
    refine ⟨fun h => ?_, fun h => congrArg Value.ofMark h⟩
    have hmark := congrArg Value.mark? h
    rwa [get, get, Value.mark?_ofMark, Value.mark?_ofMark] at hmark
  simp [Differs, hmark]

theorem differs_value (h : f.Leaves g) (hk : f.value.Keyed) :
    f.Differs g .value ↔ Value.changed f.value g.value = true := by
  rw [h.value.changed_iff hk]
  simp [Differs, get]

/-- The changes between two states of a field are its properties that differ, the mark first. -/
theorem changesTo_eq (h : f.Leaves g) (hk : f.value.Keyed) (reason : String) :
    f.changesTo g reason = (Property.all.filter fun p => f.Differs g p).map fun p =>
      ⟨f.name, p, f.get p, g.get p, reason⟩ := by
  have hchecked := differs_checked (f := f) (g := g)
  have hvalue := differs_value h hk
  by_cases hmark : f.checked = g.checked <;> by_cases hchanged : Value.changed f.value g.value <;>
    simp [changesTo, Property.all, hmark, hchanged, hchecked, hvalue, get]

end Field

/-- The changes between fields, one field after another, lead from the one list to the other. -/
theorem Change.leads_flatMap {fields gs : List Field} (front : List Field) (reason : Field → String)
    (h : List.Forall₂ Field.Leaves fields gs) (hn : ((front ++ fields).map (·.name)).Nodup) :
    Leads (front ++ fields) ((fields.zip gs).flatMap fun (f, g) => f.changesTo g (reason f))
      (front ++ gs) := by
  induction h generalizing front with
  | nil => rfl
  | @cons f g fields gs hfg hrest ih =>
    have hf : (front ++ f :: fields)[front.length]? = some f := by simp
    have hset : (front ++ f :: fields).set front.length g = front ++ [g] ++ fields := by simp
    have hname : g.name = f.name := by rw [hfg.rest]
    have hhead := leads_changesTo hn hf hfg.rest hfg.value.eq_of_unchanged (reason f)
    have hn' := Field.names_set hf hname ▸ hn
    rw [hset] at hhead hn'
    have htail := ih (front ++ [g]) hn'
    rw [List.append_assoc front [g] gs] at htail
    exact hhead.append htail

namespace Compliance

variable {fields : List Field} {rules : List Rule} {o : Outcome} {c : Change}

theorem issuesOf_eq (hk : ∀ f ∈ fields, f.value.Keyed) (h : Rule.apply fields rules = .ok o) :
    issuesOf fields o = (fields.zip o.fields).flatMap fun (f, g) =>
      (Property.all.filter fun p => f.Differs g p).map fun p =>
        ⟨f.name, p, f.get p, g.get p, (o.reasons.get? f.name).getD "Rule enforcement"⟩ := by
  refine List.flatMap_congr fun (f, g) hfg => ?_
  exact Field.changesTo_eq (List.forall₂_zip (Rule.leaves_apply h) hfg)
    (hk f (List.of_mem_zip hfg).1) _

theorem mem_issuesOf_iff (hk : ∀ f ∈ fields, f.value.Keyed) (h : Rule.apply fields rules = .ok o) :
    c ∈ issuesOf fields o ↔ ∃ f g, (f, g) ∈ fields.zip o.fields ∧ ∃ p, f.Differs g p ∧
      c = ⟨f.name, p, f.get p, g.get p, (o.reasons.get? f.name).getD "Rule enforcement"⟩ := by
  rw [issuesOf_eq hk h]
  have hall : ∀ p, p ∈ Property.all := fun p => by cases p <;> decide
  simp [hall, eq_comm]

theorem exists_mem_zip (h : Rule.apply fields rules = .ok o) {f : Field} (hf : f ∈ fields) :
    ∃ g, (f, g) ∈ fields.zip o.fields := by
  obtain ⟨i, hi⟩ := List.mem_iff_getElem?.mp hf
  have hlt : i < o.fields.length :=
    (Rule.leaves_apply h).length_eq ▸ (List.getElem?_eq_some_iff.mp hi).1
  have hzip : (fields.zip o.fields)[i]? = some (f, o.fields[i]) :=
    List.getElem?_zip_eq_some.mpr ⟨hi, List.getElem?_eq_getElem hlt⟩
  exact ⟨o.fields[i], List.mem_of_getElem? hzip⟩

/-- A difference without a reason is that of a bare `nan`. -/
theorem reason_of_mem_issuesOf (hk : ∀ f ∈ fields, f.value.Keyed)
    (h : Rule.apply fields rules = .ok o) (hc : c ∈ issuesOf fields o) :
    o.reasons.get? c.field = some c.reason ∨
      c.field ∉ o.reasons.keys ∧ c.reason = "Rule enforcement" ∧ c.property = .value ∧
        c.old = .double .nan ∧ c.new = .double .nan := by
  obtain ⟨f, g, hfg, p, hdiffers, rfl⟩ := (mem_issuesOf_iff hk h).mp hc
  dsimp only
  by_cases hkey : f.name ∈ o.reasons.keys
  · obtain ⟨reason, hreason⟩ := Option.isSome_iff_exists.mp (Entries.contains_iff.mpr hkey)
    rw [hreason]
    exact .inl rfl
  · -- no reason, so nothing was changed
    have hsame : g = f := (List.forall₂_zip (Rule.explained_apply h) hfg).2 hkey
    subst hsame
    obtain hne | ⟨rfl, hnan, -⟩ := hdiffers
    · exact absurd rfl hne
    · rw [Entries.get?_eq_none hkey]
      exact .inr ⟨hkey, rfl, rfl, hnan, hnan⟩

/-- All differences have the reason of the run if and only if it has one for every bare `nan`. -/
theorem reasons_iff (hk : ∀ f ∈ fields, f.value.Keyed) (h : Rule.apply fields rules = .ok o) :
    (∀ c ∈ issuesOf fields o, o.reasons.get? c.field = some c.reason) ↔
      ∀ f ∈ fields, f.value = .double .nan → f.name ∈ o.reasons.keys := by
  constructor
  · intro hall f hf hnan
    by_contra hkey
    -- the field is as it was, and its value is reported
    obtain ⟨g, hfg⟩ := exists_mem_zip h hf
    have hsame : g = f := (List.forall₂_zip (Rule.explained_apply h) hfg).2 hkey
    subst hsame
    have hreason := hall _ ((mem_issuesOf_iff hk h).mpr
      ⟨_, _, hfg, .value, .inr ⟨rfl, hnan, hnan⟩, rfl⟩)
    rw [Entries.get?_eq_none hkey] at hreason
    cases hreason
  · intro hall c hc
    rcases reason_of_mem_issuesOf hk h hc with hreason | ⟨hkey, -, hvalue, hold, -⟩
    · exact hreason
    · obtain ⟨f, g, hfg, p, -, rfl⟩ := (mem_issuesOf_iff hk h).mp hc
      obtain rfl : p = .value := hvalue
      exact absurd (hall f (List.of_mem_zip hfg).1 hold) hkey

theorem foldl_redo_issuesOf (hn : (fields.map (·.name)).Nodup)
    (h : Rule.apply fields rules = .ok o) :
    (issuesOf fields o).foldl Change.redo fields = o.fields := by
  have hleads := Change.leads_flatMap []
    (fun f => (o.reasons.get? f.name).getD "Rule enforcement") (Rule.leaves_apply h) hn
  exact hleads.foldl_redo

end Compliance

namespace Template

variable {t : Template} {ref : RuleSetRef} {res : Resolution}

theorem complianceReply_of_error (hres : t.resolution ref = .ok res) {fault : Fault}
    (h : Rule.apply t.fields res.rules = .error fault) :
    t.complianceReply ref = .error (.fault fault) := by
  unfold complianceReply complianceWith
  rw [hres]
  dsimp only
  rw [h]
  rfl

theorem complianceReply_of_ok (hres : t.resolution ref = .ok res) {o : Outcome}
    (h : Rule.apply t.fields res.rules = .ok o) :
    t.complianceReply ref =
      .ok (Compliance.reply ⟨res.ruleSet.name, Compliance.issuesOf t.fields o⟩) := by
  unfold complianceReply complianceWith
  rw [hres]
  dsimp only
  rw [h]
  rfl

/-- The reply on compliance reports every property that differs between the fields of a template
and the outcome of the rules over them, field by field, the mark before the value. With each come
both values and the reason of the run; made one after another, the changes give the fields of the
outcome. Where a bare `nan` is kept it is reported as well, and then, if no rule has reached its
field, there is no reason for it. -/
theorem complianceReply_reports (hn : (t.fields.map (·.name)).Nodup)
    (hk : ∀ f ∈ t.fields, f.value.Keyed) (hres : t.resolution ref = .ok res) :
    (Field.AllWritable t.fields → ∃ o, Rule.apply t.fields res.rules = .ok o) ∧
    (∀ fault, Rule.apply t.fields res.rules = .error fault →
      t.complianceReply ref = .error (.fault fault)) ∧
    ∀ o, Rule.apply t.fields res.rules = .ok o → ∃ issues : List Change,
      t.complianceReply ref = .ok (Compliance.reply ⟨res.ruleSet.name, issues⟩) ∧
      (issues.map fun c => (c.field, c.property)) = ((t.fields.zip o.fields).flatMap fun (f, g) =>
        (Property.all.filter fun p => f.Differs g p).map fun p => (f.name, p)) ∧
      (∀ c ∈ issues, ∃ f g, (f, g) ∈ t.fields.zip o.fields ∧ c.field = f.name ∧
        c.old = f.get c.property ∧ c.new = g.get c.property) ∧
      (∀ c ∈ issues, o.reasons.get? c.field = some c.reason ∨
        c.field ∉ o.reasons.keys ∧ c.reason = "Rule enforcement" ∧ c.property = .value ∧
          c.old = .double .nan ∧ c.new = .double .nan) ∧
      ((∀ c ∈ issues, o.reasons.get? c.field = some c.reason) ↔
        ∀ f ∈ t.fields, f.value = .double .nan → f.name ∈ o.reasons.keys) ∧
      issues.foldl Change.redo t.fields = o.fields := by
  refine ⟨fun hw => ?_, fun fault => complianceReply_of_error hres, fun o h =>
    ⟨_, complianceReply_of_ok hres h, ?_, fun c hc => ?_, fun c hc => ?_, ?_, ?_⟩⟩
  · obtain ⟨o, ho, -⟩ := Rule.exists_apply hw res.rules
    exact ⟨o, ho⟩
  · rw [Compliance.issuesOf_eq hk h, List.map_flatMap]
    refine List.flatMap_congr fun (f, g) _ => ?_
    rw [List.map_map]
    rfl
  · obtain ⟨f, g, hfg, p, -, rfl⟩ := (Compliance.mem_issuesOf_iff hk h).mp hc
    exact ⟨f, g, hfg, rfl, rfl, rfl⟩
  · exact Compliance.reason_of_mem_issuesOf hk h hc
  · exact Compliance.reasons_iff hk h
  · exact Compliance.foldl_redo_issuesOf hn h

def evening : RuleSet where
  name := "evening"
  rules := [{ targets := [⟨"hatch", .set none, false⟩, ⟨"stair", .contains "dim", false⟩] }]

/-- A boathouse with a gauge that shows no number. -/
def boathouse : Template where
  fields := [{ name := "gauge", value := .double .nan }, { name := "hatch", value := .text "shut" },
    { name := "stair.lamp", value := .list [.text "warm"], checked := some true }]
  ruleSets := [evening]

/-- The mark of the hatch and the value of the lamp differ. The gauge, which no rule has touched, is
reported without a reason. -/
theorem boathouse_reports : ∃ (o : Outcome) (issues : List Change),
    boathouse.complianceReply (.index 0) = .ok (Compliance.reply ⟨"evening", issues⟩) ∧
    (issues.map fun c => (c.field, c.property)) =
      [("gauge", .value), ("hatch", .checked), ("stair.lamp", .value)] ∧
    (¬ ∀ c ∈ issues, o.reasons.get? c.field = some c.reason) ∧
    issues.foldl Change.redo boathouse.fields = o.fields := by
  have hk : ∀ f ∈ boathouse.fields, f.value.Keyed := by
    simp [boathouse, Value.Keyed, Value.KeyedItems]
  have hres : boathouse.resolution (.index 0) = .ok ⟨evening, evening.rules⟩ := by rfl
  have hreports := complianceReply_reports (t := boathouse) (by decide) hk hres
  obtain ⟨o, ho⟩ : ∃ o, Rule.apply boathouse.fields evening.rules = .ok o := ⟨_, rfl⟩
  obtain ⟨issues, hreply, hissues, -, -, hreasons, hredo⟩ := hreports.2.2 o ho
  cases ho
  refine ⟨_, issues, hreply, hissues.trans (by decide), ?_, hredo⟩
  rw [hreasons]
  decide

example : Compliance.issuesOf [{ name := "gauge", value := .double .nan }]
      { fields := [{ name := "gauge", value := .double .nan }] } =
    [⟨"gauge", .value, .double .nan, .double .nan, "Rule enforcement"⟩] := by
  rfl

end Template

end FieldRules
