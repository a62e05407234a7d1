import FieldRules.Proofs.Run.Replay
import FieldRules.Proofs.Run.Sequel

/-! The event before a run is recorded and does nothing else. Its changes come before those of the
rules, and for an event over all fields they lead from the marks before it to those that the rules
find. -/
namespace FieldRules

theorem Change.write_eq_self {c : Change} {fields : List Field}
    (h : c.field ∉ fields.map (·.name)) (v : Value) : c.write v fields = fields := by
  refine (List.map_congr_left fun f hf => ?_).trans (List.map_id fields)
  exact if_neg fun hname => h (List.mem_map.mpr ⟨f, hf, hname⟩)

/-- The field with the mark that it has among others, if it is one of them. -/
def Field.remarked (after : List Field) (f : Field) : Field :=
  match Trigger.named? after f.name with
  | some g => { f with checked := g.checked }
  | none => f

@[simp] theorem Field.name_remarked (after : List Field) (f : Field) :
    (f.remarked after).name = f.name := by
  unfold remarked
  split <;> rfl

namespace Trigger

variable {before after : List Field} {reason : String}

theorem named?_eq_some {g : Field} (hn : (after.map (·.name)).Nodup) (hg : g ∈ after) :
    named? after g.name = some g := by
  unfold named?
  cases h : after.reverse.find? fun f => f.name == g.name with
  | none =>
    have hall := List.find?_eq_none.mp h g (List.mem_reverse.mpr hg)
    simp at hall
  | some g' =>
    have hname : g'.name = g.name := by simpa using List.find?_some h
    have hg' : g' ∈ after := List.mem_reverse.mp (List.mem_of_find?_eq_some h)
    rw [List.inj_on_of_nodup_map hn hg' hg hname]

theorem bulkChanges_cons (f : Field) (fields after : List Field) (reason : String) :
    bulkChanges (f :: fields) after reason =
      bulkChanges [f] after reason ++ bulkChanges fields after reason := by
  unfold bulkChanges
  rw [← List.filterMap_append, List.singleton_append]

theorem bulkChanges_singleton {f g : Field} (hg : named? after f.name = some g) :
    bulkChanges [f] after reason = if f.checked = g.checked then []
      else [⟨f.name, .checked, .ofMark f.checked, .ofMark g.checked, reason⟩] := by
  by_cases hsame : f.checked = g.checked <;> simp [bulkChanges, hg, hsame]

/-- The changes on one field are made again on that field. -/
theorem foldl_redo_singleton {f : Field} {left right : List Field}
    (hleft : f.name ∉ left.map (·.name)) (hright : f.name ∉ right.map (·.name)) :
    (bulkChanges [f] after reason).foldl Change.redo (left ++ f :: right) =
      left ++ f.remarked after :: right := by
  cases hg : named? after f.name with
  | none => simp [bulkChanges, Field.remarked, hg]
  | some g =>
    have hremarked : f.remarked after = { f with checked := g.checked } := by
      simp [Field.remarked, hg]
    rw [bulkChanges_singleton hg, hremarked]
    split_ifs with hsame
    · rw [List.foldl_nil, ← hsame]
    · have hl := Change.write_eq_self
        (c := ⟨f.name, .checked, .ofMark f.checked, .ofMark g.checked, reason⟩) hleft
      have hr := Change.write_eq_self
        (c := ⟨f.name, .checked, .ofMark f.checked, .ofMark g.checked, reason⟩) hright
      unfold Change.write at hl hr
      rw [List.foldl_cons, List.foldl_nil, Change.redo, Change.write, List.map_append,
        List.map_cons, hl, hr, if_pos rfl]
      simp [Field.put]

/-- Made again on the fields before an event, its changes of marks give the marks after it. -/
theorem foldl_redo_bulkChanges (hn : (before.map (·.name)).Nodup) :
    (bulkChanges before after reason).foldl Change.redo before =
      before.map (Field.remarked after) := by
  suffices hsplit : ∀ left right : List Field, ((left ++ right).map (·.name)).Nodup →
      (bulkChanges right after reason).foldl Change.redo (left ++ right) =
        left ++ right.map (Field.remarked after) from hsplit [] before hn
  intro left right
  induction right generalizing left with
  | nil => intro _; rfl
  | cons f right ih =>
    intro hn
    have hn' : ((left ++ [f.remarked after] ++ right).map (·.name)).Nodup := by
      simpa using hn
    rw [List.map_append, List.map_cons, List.nodup_middle, List.nodup_cons, List.mem_append] at hn
    obtain ⟨hleft, hright⟩ := not_or.mp hn.1
    rw [bulkChanges_cons, List.foldl_append, foldl_redo_singleton hleft hright]
    simpa using ih (left ++ [f.remarked after]) hn'

/-- The changes with which the record of a run starts: those of the event before it, if there was
one. -/
def recorded (trigger : Option Trigger) (before : Option (List Field)) (fields : List Field) :
    List Change :=
  (trigger.map fun t => t.changes before fields).getD []

end Trigger

/-- An event before a run puts its changes in front of those of the run, and that is all it does.
If the event was over all fields, the changes lead from the marks before it to those that the first
rule finds. -/
theorem Run.of_trigger (fields : List Field) (rules : List Rule) (trigger : Option Trigger)
    (before : Option (List Field)) :
    (Run.of fields rules trigger before).outcome = (Rule.apply fields rules).map
      (fun o => { o with changes := Trigger.recorded trigger before fields ++ o.changes }) ∧
    ∀ t ∈ trigger, t.kind = .checkAll ∨ t.kind = .uncheckAll → ∀ originals ∈ before,
      (originals.map (·.name)).Nodup → (fields.map (·.name)).Nodup →
        ((Trigger.recorded trigger before fields).foldl Change.redo originals).map (·.name) =
          originals.map (·.name) ∧
        ∀ f ∈ (Trigger.recorded trigger before fields).foldl Change.redo originals,
          ∀ g ∈ fields, g.name = f.name → f.checked = g.checked := by
  constructor
  · let start : Outcome := { fields, changes := Trigger.recorded trigger before fields }
    change (Run.after start rules).outcome = _
    rw [Run.outcome_after, Outcome.foldlM_follow]
    cases h : Rule.apply fields rules with
    | error fault => rfl
    | ok o =>
      have hdistinct : o.Distinct :=
        Rule.apply_induct h (Outcome.distinct_init fields) fun _ _ _ _ hs hp => hp.step hs
      have hreasons : Entries.overlay [] o.reasons = o.reasons := Entries.ofPairs_eq hdistinct
      simp [start, Except.map, Outcome.andThen, hreasons]
  · intro t ht hkind originals horiginals hn hn'
    cases ht
    cases horiginals
    obtain ⟨reason, hreason⟩ : ∃ reason, t.kind.bulkReason? = some reason := by
      rcases hkind with hkind | hkind <;> exact ⟨_, by rw [hkind]; rfl⟩
    have hrecorded : Trigger.recorded (some t) (some originals) fields =
        Trigger.bulkChanges originals fields reason := by
      simp [Trigger.recorded, Trigger.changes, hreason]
    rw [hrecorded, Trigger.foldl_redo_bulkChanges hn]
    constructor
    · simp
    · intro f hf g hg hname
      obtain ⟨f', -, rfl⟩ := List.mem_map.mp hf
      rw [Field.name_remarked] at hname
      have hnamed : Trigger.named? fields f'.name = some g := by
        rw [← hname, Trigger.named?_eq_some hn' hg]
      simp [Field.remarked, hnamed]

/-- Three fields before all were checked: the first is unmarked, and the last is not there after. -/
def surveyed : List Field := [
  { name := "a" }, { name := "b", checked := some true }, { name := "gone", checked := some false }]

/-- Three fields after all were checked, of which the last is new. -/
def ticked : List Field := [
  { name := "b", checked := some true }, { name := "a", checked := some true },
  { name := "new", checked := some true }]

/-- Takes the mark of `a` back, and gives `new` a value. -/
def corrections : List Rule := [
  { targets := [⟨"a", .set none, true⟩, ⟨"new", .setToValue "v", false⟩] }]

theorem surveyed_trigger : ∃ o o',
    (Run.of ticked corrections (some { kind := .checkAll }) (some surveyed)).outcome = .ok o ∧
    Rule.apply ticked corrections = .ok o' ∧ o.fields = o'.fields ∧
    o.changes = Trigger.recorded (some { kind := .checkAll }) (some surveyed) ticked ++ o'.changes ∧
    ∀ f ∈ (Trigger.recorded (some { kind := .checkAll }) (some surveyed) ticked).foldl
        Change.redo surveyed,
      ∀ g ∈ ticked, g.name = f.name → f.checked = g.checked := by
  obtain ⟨hrun, hreplay⟩ :=
    Run.of_trigger ticked corrections (some { kind := .checkAll }) (some surveyed)
  obtain ⟨o', ho'⟩ : ∃ o', Rule.apply ticked corrections = .ok o' := ⟨_, rfl⟩
  obtain ⟨-, hmarks⟩ := hreplay _ rfl (.inl rfl) _ rfl (by decide) (by decide)
  rw [ho'] at hrun
  exact ⟨_, o', hrun, ho', rfl, rfl, hmarks⟩

end FieldRules
