import FieldRules.Proofs.Record.Library
import FieldRules.Record.Template

/-! Records that are dumped and read again. What reading has accepted is in a form that dumping keeps
and reading does not change, at every depth of a template. -/
namespace FieldRules

open Record

namespace Record.Library.Lawful

variable {lib : Library} {α : Type} {c : Coercion α} {es parts : Entries Value} {key : String}
  {v : Value} {a : α}

section
variable (hlib : lib.Lawful)
include hlib

/-- A dumped record is read as what its parts are read as. -/
theorem record_dump {f : Entries Value → Verdict α}
    (h : ∀ es, (∀ key, Entries.get? es key = Entries.get? parts key) → f es = .accepted a) :
    lib.record f (lib.dump parts) = .accepted a := by
  obtain ⟨es, hdump, hes⟩ := hlib.dump_map parts
  exact hlib.record_iff.mpr ⟨es, hdump, h es hes⟩

theorem need_of_get? (hv : Entries.get? es key = some v) (hc : c v = .accepted a) :
    lib.need es key c = .accepted a :=
  hlib.need_iff.mpr ⟨v, hv, hc⟩

theorem part_of_get? {others : List String} {default : α} (hv : Entries.get? es key = some v)
    (hc : c v = .accepted a) : lib.part es key others default c = .accepted a := by
  refine hlib.part_iff.mpr (.inr ⟨v, ?_, hc⟩)
  rw [lookUp, List.findSome?_cons, hv]

/-- A part that was read is what stands there, or what is taken for it when nothing does. -/
theorem part_cases {others : List String} {default : α}
    (h : lib.part es key others default c = .accepted a) :
    a = default ∨ ∃ v, c v = .accepted a :=
  (hlib.part_iff.mp h).imp (·.2) fun ⟨v, _, hv⟩ => ⟨v, hv⟩

theorem optional_text (s : Option String) :
    lib.optional lib.text (.ofOption s) = .accepted s := by
  cases s with
  | none => exact hlib.optional_null _
  | some s => exact hlib.optional_some (by simp [Value.ofOption]) (hlib.text_text s)

theorem optional_bool (b : Option Bool) : lib.optional lib.bool (.ofMark b) = .accepted b := by
  cases b with
  | none => exact hlib.optional_null _
  | some b => exact hlib.optional_some (by simp [Value.ofMark]) (hlib.bool_bool b)

theorem list_dump {dump : α → Value} {xs : List α} (h : ∀ x ∈ xs, c (dump x) = .accepted x) :
    lib.list c (.list (xs.map dump)) = .accepted xs := by
  refine hlib.list_iff.mpr ⟨_, rfl, ?_⟩
  rw [List.forall₂_map_left_iff, List.forall₂_same]
  exact h

theorem exists_of_mem_list {xs : List α} (h : lib.list c v = .accepted xs) {x : α} (hx : x ∈ xs) :
    ∃ y, c y = .accepted x := by
  obtain ⟨ys, -, hys⟩ := hlib.list_iff.mp h
  obtain ⟨i, hi, rfl⟩ := List.getElem_of_mem hx
  exact ⟨_, hys.get (hys.length_eq ▸ hi) hi⟩

end

end Record.Library.Lawful

section
variable {lib : Library} (hlib : lib.Lawful)
include hlib

theorem Field.ofField_value {v : Value} {f : Field} (h : Field.read lib v = .accepted f) :
    f.value.OfField := by
  obtain ⟨es, -, h⟩ := hlib.record_iff.mp h
  obtain ⟨_, _, hlink, -, rfl⟩ := Verdict.seq_eq_accepted.mp h
  obtain ⟨_, _, hrange, -, rfl⟩ := Verdict.seq_eq_accepted.mp hlink
  obtain ⟨_, _, hsample, -, rfl⟩ := Verdict.seq_eq_accepted.mp hrange
  obtain ⟨_, _, hinfo, -, rfl⟩ := Verdict.seq_eq_accepted.mp hsample
  obtain ⟨_, _, hboth, -, rfl⟩ := Verdict.seq_eq_accepted.mp hinfo
  obtain ⟨_, value, hname, hvalue, rfl⟩ := Verdict.seq_eq_accepted.mp hboth
  obtain ⟨name, -, rfl⟩ := Verdict.map_eq_accepted.mp hname
  rcases hlib.part_cases hvalue with rfl | ⟨v, hv⟩
  · trivial
  · exact hlib.value_typed hv

theorem Field.read_toRecord {f : Field} (h : f.value.OfField) :
    Field.read lib (f.toRecord lib) = .accepted f := by
  refine hlib.record_dump fun es hes => ?_
  rw [hlib.need_of_get? (hes "name") (hlib.text_text f.name),
    hlib.part_of_get? (hes "value") (hlib.value_kept h),
    hlib.part_of_get? (hes "info") (hlib.text_text f.info),
    hlib.part_of_get? (hes "example") (hlib.text_text f.sample),
    hlib.part_of_get? (hes "range") (hlib.text_text f.range),
    hlib.part_of_get? (hes "link") (hlib.optional_text f.link),
    hlib.part_of_get? (hes "checked") (hlib.optional_bool f.checked)]
  rfl

theorem Clause.read_toRecord (c : Clause) : Clause.read lib (c.toRecord lib) = .accepted c := by
  have hstate : lib.oneOf .unknownChoice State.name State.all (.text c.state.name) =
      .accepted c.state :=
    hlib.oneOf_name _ (by decide) (by cases c.state <;> decide)
  refine hlib.record_dump fun es hes => ?_
  rw [hlib.need_of_get? (hes "name") (hlib.text_text c.name),
    hlib.need_of_get? (hes "state") hstate,
    hlib.part_of_get? (hes "value") (hlib.optional_text c.demand.value?),
    hlib.part_of_get? (hes "not") (hlib.bool_bool c.negated)]
  obtain ⟨name, demand, negated⟩ := c
  cases demand with
  | set note =>
    cases note with
    | none => rfl
    | some note => rfl
  | setToValue value => rfl
  | contains value => rfl

theorem Rule.read_toRecord (r : Rule) : Rule.read lib (r.toRecord lib) = .accepted r := by
  obtain ⟨conditions, targets, description, hne⟩ := r
  have htargets : lib.nonempty (Clause.read lib) (.list (targets.map (Clause.toRecord lib))) =
      .accepted ⟨targets, hne⟩ :=
    hlib.nonempty_of_list ⟨targets, hne⟩ (hlib.list_dump fun c _ => c.read_toRecord hlib)
  refine hlib.record_dump fun es hes => ?_
  have hconditions : lib.part es "conditions" [] none (lib.optional (lib.list (Clause.read lib))) =
      .accepted conditions := by
    cases conditions with
    | none => exact hlib.part_of_get? (hes "conditions") (hlib.optional_null _)
    | some cs =>
      have hlist : lib.list (Clause.read lib) (.list (cs.map (Clause.toRecord lib))) =
          .accepted cs :=
        hlib.list_dump fun c _ => c.read_toRecord hlib
      exact hlib.part_of_get? (hes "conditions") (hlib.optional_some (by simp) hlist)
  rw [hconditions, hlib.need_of_get? (hes "targets") htargets,
    hlib.part_of_get? (hes "description") (hlib.optional_text description)]
  rfl

theorem RuleSet.read_toRecord (s : RuleSet) : RuleSet.read lib (s.toRecord lib) = .accepted s := by
  have htags : lib.list lib.text (.list (s.tags.map .text)) = .accepted s.tags :=
    hlib.list_dump fun tag _ => hlib.text_text tag
  have hrules : lib.list (Rule.read lib) (.list (s.rules.map (Rule.toRecord lib))) =
      .accepted s.rules :=
    hlib.list_dump fun r _ => r.read_toRecord hlib
  refine hlib.record_dump fun es hes => ?_
  rw [hlib.need_of_get? (hes "name") (hlib.text_text s.name),
    hlib.part_of_get? (hes "description") (hlib.text_text s.description),
    hlib.part_of_get? (hes "tags") htags, hlib.part_of_get? (hes "rules") hrules,
    hlib.part_of_get? (hes "extends") (hlib.optional_text s.parent)]
  rfl

theorem Template.read_toRecord {t : Template}
    (h : ∀ f ∈ t.fields, Field.read lib (f.toRecord lib) = .accepted f) :
    Template.read lib (t.toRecord lib) = .accepted t := by
  have hfields : lib.list (Field.read lib) (.list (t.fields.map (Field.toRecord lib))) =
      .accepted t.fields :=
    hlib.list_dump h
  have hruleSets : lib.list (RuleSet.read lib) (.list (t.ruleSets.map (RuleSet.toRecord lib))) =
      .accepted t.ruleSets :=
    hlib.list_dump fun s _ => s.read_toRecord hlib
  refine hlib.record_dump fun es hes => ?_
  rw [hlib.part_of_get? (hes "name") (hlib.text_text t.name),
    hlib.part_of_get? (hes "fileName") (hlib.text_text t.fileName),
    hlib.part_of_get? (hes "version") (hlib.text_text t.version),
    hlib.part_of_get? (hes "description") (hlib.text_text t.description),
    hlib.part_of_get? (hes "owner") (hlib.text_text t.owner),
    hlib.part_of_get? (hes "application") (hlib.optional_text t.application),
    hlib.part_of_get? (hes "docs") (hlib.optional_text t.docs),
    hlib.part_of_get? (hes "command") (hlib.optional_text t.command),
    hlib.part_of_get? (hes "fields") hfields, hlib.part_of_get? (hes "ruleSets") hruleSets]
  rfl

theorem Template.read_of_mem_fields {v : Value} {t : Template}
    (h : Template.read lib v = .accepted t) :
    ∀ f ∈ t.fields, ∃ w, Field.read lib w = .accepted f := by
  obtain ⟨es, -, h⟩ := hlib.record_iff.mp h
  obtain ⟨_, _, hsets, -, rfl⟩ := Verdict.seq_eq_accepted.mp h
  obtain ⟨_, fields, hcommand, hfields, rfl⟩ := Verdict.seq_eq_accepted.mp hsets
  obtain ⟨_, _, hdocs, -, rfl⟩ := Verdict.seq_eq_accepted.mp hcommand
  obtain ⟨_, _, happlication, -, rfl⟩ := Verdict.seq_eq_accepted.mp hdocs
  obtain ⟨_, _, howner, -, rfl⟩ := Verdict.seq_eq_accepted.mp happlication
  obtain ⟨_, _, hdescription, -, rfl⟩ := Verdict.seq_eq_accepted.mp howner
  obtain ⟨_, _, hversion, -, rfl⟩ := Verdict.seq_eq_accepted.mp hdescription
  obtain ⟨_, _, hfile, -, rfl⟩ := Verdict.seq_eq_accepted.mp hversion
  obtain ⟨_, _, hname, -, rfl⟩ := Verdict.seq_eq_accepted.mp hfile
  obtain ⟨name, -, rfl⟩ := Verdict.map_eq_accepted.mp hname
  rcases hlib.part_cases hfields with rfl | ⟨w, hw⟩
  · simp
  · exact fun f hf => hlib.exists_of_mem_list hw hf

end

/-- The kinds of records that make up a template. -/
inductive Kind
  | field
  | clause
  | rule
  | ruleSet
  | template

namespace Kind

/-- The records of a kind. -/
def Record : Kind → Type
  | field => Field
  | clause => Clause
  | rule => Rule
  | ruleSet => RuleSet
  | template => Template

/-- Reads a record of a kind. -/
def read (lib : Library) : (k : Kind) → Coercion k.Record
  | field => Field.read lib
  | clause => Clause.read lib
  | rule => Rule.read lib
  | ruleSet => RuleSet.read lib
  | template => Template.read lib

/-- Dumps a record of a kind. -/
def dump (lib : Library) : (k : Kind) → k.Record → Value
  | field => Field.toRecord lib
  | clause => Clause.toRecord lib
  | rule => Rule.toRecord lib
  | ruleSet => RuleSet.toRecord lib
  | template => Template.toRecord lib

/-- Whatever a record was read from, its dump is read as the same record. -/
theorem read_dump {lib : Library} (hlib : lib.Lawful) (k : Kind) {v : Value} {a : k.Record}
    (h : k.read lib v = .accepted a) : k.read lib (k.dump lib a) = .accepted a := by
  cases k with
  | field => exact Field.read_toRecord hlib (Field.ofField_value hlib h)
  | clause => exact Clause.read_toRecord hlib a
  | rule => exact Rule.read_toRecord hlib a
  | ruleSet => exact RuleSet.read_toRecord hlib a
  | template =>
    refine Template.read_toRecord hlib fun f hf => ?_
    obtain ⟨w, hw⟩ := Template.read_of_mem_fields hlib h f hf
    exact Field.read_toRecord hlib (Field.ofField_value hlib hw)

/-- A template with a mark that is a word, a truth value in a list and keys of either spelling. -/
def draft : Value :=
  .map [("file_name", .text "draft.json"), ("fields", .list [
      .map [("name", .text "ports"), ("value", .list [.int 80, .bool true]),
        ("checked", .text "Yes")],
      .map [("name", .text "host"), ("link", .null)]]),
    ("ruleSets", .list [.map [("name", .text "base"), ("rules", .list [.map [("targets", .list [
      .map [("name", .text "ports"), ("state", .text "contains"), ("value", .text "80"),
        ("negate", .int 1)]])]])]])]

theorem draft_read_dump : Library.lax.Lawful ∧ ∃ t, template.read .lax draft = .accepted t ∧
    template.read .lax (template.dump .lax t) = .accepted t := by
  obtain ⟨t, ht⟩ : ∃ t, template.read .lax draft = .accepted t := ⟨_, rfl⟩
  exact ⟨Library.lawful_lax, t, ht, read_dump Library.lawful_lax template ht⟩

end Kind

end FieldRules
