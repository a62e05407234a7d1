import FieldRules.Proofs.Inheritance.Resolution
import FieldRules.Proofs.Run.Total
import FieldRules.Service.Application
import FieldRules.Service.Validation

/-! Applying a set of rules and validating it find the same set and resolve it to the same rules,
though one goes by its position and the other by its name. -/
namespace FieldRules

/-- An operation answers that it could not be carried out, and gives a code for the reason. -/
def FailsWith (answer : Except Failure Reply) (code : String) : Prop :=
  ∃ reply problem, answer = .ok reply ∧ reply.ok = false ∧ reply.problem = some problem ∧
    problem.code = code

/-- The first report on a set of rules in an answer. -/
def firstReport? : Except Failure Reply → Option (Entries Value)
  | .error _ => none
  | .ok reply =>
    match Entries.get? reply.data "rule_sets" with
    | some (.list (.map report :: _)) => some report
    | _ => none

/-- The answers to applying a set of rules and to validating it agree. -/
structure Agree (applied validated : Except Failure Reply) : Prop where
  notFound : FailsWith applied "NOT_FOUND" ↔ FailsWith validated "NOT_FOUND"
  circular : FailsWith applied "INHERITANCE_CYCLE" ↔
    ∃ report, firstReport? validated = some report ∧ Entries.get? report "rule_count" = none
  message : ∀ reply problem, applied = .ok reply → reply.problem = some problem →
    problem.code = "INHERITANCE_CYCLE" → ∃ report, firstReport? validated = some report ∧
      Entries.get? report "errors" = some (.ofTexts [problem.message])
  counts : ¬ FailsWith applied "NOT_FOUND" → ¬ FailsWith applied "INHERITANCE_CYCLE" →
    ∀ reply, applied = .ok reply → ∃ notes report name count, reply.ok = true ∧
      reply.notes = some notes ∧ firstReport? validated = some report ∧
      Entries.get? notes "rule_set" = some name ∧ Entries.get? report "name" = some name ∧
      Entries.get? notes "rule_count" = some count ∧ Entries.get? report "rule_count" = some count

theorem failsWith_ok {reply : Reply} {code : String} : FailsWith (.ok reply) code ↔
    reply.ok = false ∧ reply.problem.map (·.code) = some code := by
  constructor
  · rintro ⟨reply', problem, hreply, hok, hproblem, hcode⟩
    cases hreply
    exact ⟨hok, by rw [hproblem, Option.map_some, hcode]⟩
  · rintro ⟨hok, hcode⟩
    obtain ⟨problem, hproblem, hcode⟩ := Option.map_eq_some_iff.mp hcode
    exact ⟨reply, problem, rfl, hok, hproblem, hcode⟩

theorem not_failsWith_error {failure : Failure} {code : String} :
    ¬ FailsWith (.error failure) code := by
  rintro ⟨reply, problem, h, -⟩
  cases h

theorem Agree.of_error {failure failure' : Failure} : Agree (.error failure) (.error failure') where
  notFound := iff_of_false not_failsWith_error not_failsWith_error
  circular := iff_of_false not_failsWith_error fun ⟨_, h, _⟩ => nomatch h
  message := fun _ _ h => nomatch h
  counts := fun _ _ _ h => nomatch h

/-- A set that is applied has nothing to answer but the outcome of its run. -/
theorem Application.of_reply {a : Application} {reply : Reply} (h : a.reply = .ok reply) :
    reply.ok = true ∧ reply.problem = none ∧
      reply.notes = some [("rule_set", .text a.ruleSet), ("rule_count", .int a.ruleCount)] := by
  unfold Application.reply at h
  cases hrun : a.run.outcome with
  | error fault =>
    rw [hrun] at h
    cases h
  | ok o =>
    rw [hrun] at h
    cases h
    exact ⟨rfl, rfl, rfl⟩

theorem Application.exists_reply {a : Application} {o : Outcome} (h : a.run.outcome = .ok o) :
    ∃ reply, a.reply = .ok reply := by
  rw [reply, h]
  exact ⟨_, rfl⟩

theorem Application.not_failsWith_reply {a : Application} {code : String} :
    ¬ FailsWith a.reply code := by
  rintro ⟨reply, problem, h, -, hproblem, -⟩
  obtain ⟨-, hnone, -⟩ := of_reply h
  rw [hnone] at hproblem
  cases hproblem

namespace Template

variable {t : Template} {s : RuleSet} {ref : RuleSetRef} {tag : Option String}
  {settings : CheckSettings} {trigger : Option Trigger} {before : Option (List Field)}

/-- The first of the sets that are validated is the one that is applied. -/
theorem head?_select (t : Template) (ref : RuleSetRef) (tag : Option String) :
    (t.select (some ref) tag).head? = (t.position? ref).bind fun i => t.ruleSets[i]? := by
  cases ref with
  | name name => exact List.head?_filter.trans List.find?_eq_bind_findIdx?_getElem?
  | index i =>
    simp only [select, lookUp, ruleSetAt?, position?, Option.head?_toList]
    by_cases hi : 0 ≤ i
    · by_cases hlt : i < t.ruleSets.length
      · simp [hi, hlt]
      · simp [hi, hlt]
    · simp [hi]
  | flag b =>
    simp only [select, lookUp, position?, Option.head?_toList]
    by_cases hlt : b.toNat < t.ruleSets.length
    · simp [hlt]
    · simp [hlt]

theorem resolve_index (hn : t.ruleSetNames.Nodup) {i : ℕ} (hs : t.ruleSets[i]? = some s) :
    t.resolve (.index i) = t.resolve (.name s.name) := by
  have hindex : t.lookUp (.index i) = some s := by simpa [lookUp, ruleSetAt?] using hs
  have hname : t.lookUp (.name s.name) = some s := ruleSet?_name hn (List.mem_of_getElem? hs)
  rw [resolve_eq hindex, resolve_eq hname]

theorem resolution_of_select_nil (h : t.select (some ref) tag = []) :
    t.resolution ref = .error (.notFound ref) := by
  have hnone : ((t.position? ref).bind fun i => t.ruleSets[i]?) = none := by
    rw [← head?_select t ref tag, h, List.head?_nil]
  have hpair : ((t.position? ref).bind fun i => (t.ruleSets[i]?).map fun s => (i, s)) = none := by
    rw [Option.bind_eq_none_iff] at hnone ⊢
    exact fun i hi => by rw [hnone i hi, Option.map_none]
  rw [resolution, hpair]

theorem resolution_of_select_cons (hn : t.ruleSetNames.Nodup) {rest : List RuleSet}
    (h : t.select (some ref) tag = s :: rest) : t.resolution ref =
      match t.resolve (.name s.name) with
      | .ok rules => .ok ⟨s, rules⟩
      | .error cycle => .error (.circular cycle) := by
  have hhead := head?_select t ref tag
  rw [h, List.head?_cons] at hhead
  obtain ⟨i, hi, hs⟩ := Option.bind_eq_some_iff.mp hhead.symm
  rw [resolution, hi, Option.bind_some, hs, ← resolve_index hn hs]
  rfl

theorem exists_validateReply {rest : List RuleSet} (h : t.select (some ref) tag = s :: rest)
    (settings : CheckSettings) :
    ∃ reply record, t.validateReply settings (some ref) tag = .ok reply ∧ reply.problem = none ∧
      (t.report settings s).toRecord = .map record ∧ firstReport? (.ok reply) = some record := by
  rw [validateReply, validate?, h]
  exact ⟨_, _, rfl, rfl, rfl, rfl⟩

theorem agree_of_select_nil (h : t.select (some ref) tag = []) :
    Agree (t.applyReply ref trigger before) (t.validateReply settings (some ref) tag) := by
  rw [applyReply, apply, resolution_of_select_nil h, validateReply, validate?, h]
  simp only [bind, Except.bind, refuse, asked]
  -- a position that is too long to be quoted is quoted by neither
  cases ref.inspect with
  | error fault => exact .of_error
  | ok quoted =>
    simp only [Except.mapError, pure, Except.pure]
    constructor
    case notFound => simp [failsWith_ok]
    case circular => simp [failsWith_ok, firstReport?]
    case message =>
      rintro reply problem ⟨⟩ ⟨⟩ hcode
      simp at hcode
    case counts =>
      intro hfound
      simp [failsWith_ok] at hfound

theorem agree_of_resolve_error (hn : t.ruleSetNames.Nodup) {rest : List RuleSet}
    (h : t.select (some ref) tag = s :: rest) {cycle : InheritanceCycle}
    (hcycle : t.resolve (.name s.name) = .error cycle) :
    Agree (t.applyReply ref trigger before) (t.validateReply settings (some ref) tag) := by
  have hreport : t.report settings s = .circular s.name cycle := by rw [report, hcycle]
  obtain ⟨reply, record, hreply, hproblem, hrecord, hfirst⟩ := exists_validateReply h settings
  rw [hreport] at hrecord
  cases hrecord
  rw [applyReply, apply, resolution_of_select_cons hn h, hcycle, hreply]
  simp only [bind, Except.bind, refuse]
  constructor
  case notFound => simp [failsWith_ok, hproblem]
  case circular => simp [failsWith_ok, hfirst]
  case message =>
    rintro reply problem ⟨⟩ ⟨⟩ -
    exact ⟨_, hfirst, rfl⟩
  case counts =>
    intro _ hcircular
    simp [failsWith_ok] at hcircular

theorem agree_of_resolve (hn : t.ruleSetNames.Nodup) {rest : List RuleSet}
    (h : t.select (some ref) tag = s :: rest) {rules : List Rule}
    (hrules : t.resolve (.name s.name) = .ok rules) :
    Agree (t.applyReply ref trigger before) (t.validateReply settings (some ref) tag) := by
  have hreport : t.report settings s = .checked s.name rules.length (t.lineage (.name s.name))
      (Check.ofRules settings rules) := by rw [report, hrules]
  obtain ⟨reply, record, hreply, hproblem, hrecord, hfirst⟩ := exists_validateReply h settings
  rw [hreport] at hrecord
  cases hrecord
  rw [applyReply, apply, resolution_of_select_cons hn h, hrules, hreply]
  simp only [bind, Except.bind, pure, Except.pure]
  constructor
  case notFound => simp [failsWith_ok, Application.not_failsWith_reply, hproblem]
  case circular => simp [Application.not_failsWith_reply, hfirst]
  case message =>
    intro reply problem hreply hsome
    obtain ⟨-, hnone, -⟩ := Application.of_reply hreply
    rw [hnone] at hsome
    cases hsome
  case counts =>
    intro _ _ reply hreply
    obtain ⟨hok, -, hnotes⟩ := Application.of_reply hreply
    exact ⟨_, _, _, _, hok, hnotes, hfirst, rfl, rfl, rfl, rfl⟩

/-- There is an answer to applying a set where there is one to validating it, unless an integer is
too long to be written. -/
theorem exists_applyReply (hn : t.ruleSetNames.Nodup) (hw : Field.AllWritable t.fields)
    {validated : Reply} (h : t.validateReply settings (some ref) tag = .ok validated) :
    ∃ applied, t.applyReply ref trigger before = .ok applied := by
  cases hselect : t.select (some ref) tag with
  | nil =>
    rw [validateReply, validate?, hselect] at h
    rw [applyReply, apply, resolution_of_select_nil hselect]
    cases hquoted : ref.inspect with
    | error fault =>
      simp [asked, hquoted, bind, Except.bind, Except.mapError] at h
    | ok quoted =>
      simp [refuse, hquoted, bind, Except.bind, Except.mapError, pure, Except.pure]
  | cons s rest =>
    rw [applyReply, apply, resolution_of_select_cons hn hselect]
    cases t.resolve (.name s.name) with
    | error cycle => exact ⟨_, rfl⟩
    | ok rules =>
      obtain ⟨o, ho, -⟩ := Run.exists_after (o := { fields := t.fields, changes := _ }) hw rules
      exact Application.exists_reply ho

/-- Applying a set of rules fails just as its validation does, and otherwise says of it what the
first report says. -/
theorem apply_agrees_validate (hn : t.ruleSetNames.Nodup) (settings : CheckSettings)
    (ref : RuleSetRef) (tag : Option String) (trigger : Option Trigger)
    (before : Option (List Field)) :
    Agree (t.applyReply ref trigger before) (t.validateReply settings (some ref) tag) ∧
    (Field.AllWritable t.fields → ∀ validated,
      t.validateReply settings (some ref) tag = .ok validated →
      ∃ applied, t.applyReply ref trigger before = .ok applied) := by
  refine ⟨?_, fun hw _ h => exists_applyReply hn hw h⟩
  cases h : t.select (some ref) tag with
  | nil => exact agree_of_select_nil h
  | cons s rest =>
    cases hresolve : t.resolve (.name s.name) with
    | error cycle => exact agree_of_resolve_error hn h hresolve
    | ok rules => exact agree_of_resolve hn h hresolve

/-- Three sets whose names differ only in case, of which two are in a loop, and the parent of the
first. -/
def homonyms : Template where
  fields := [{ name := "leaf", value := .text "green" }]
  ruleSets := [
    { name := "Oak", rules := [{ targets := [⟨"leaf", .set none, true⟩] }], parent := some "tree" },
    { name := "OAK", parent := some "oak" },
    { name := "oak", parent := some "OAK" },
    { name := "tree", rules := [{ targets := [⟨"root", .set none, true⟩] }] }]

theorem homonyms_agree :
    (∃ reply, homonyms.applyReply (.name "oAK") none none = .ok reply) ∧
    (∃ report, firstReport? (homonyms.validateReply {} (some (.name "oAK")) none) = some report ∧
      Entries.get? report "name" = some (.text "Oak") ∧
      Entries.get? report "rule_count" = some (.int 2)) ∧
    (∃ report, firstReport? (homonyms.validateReply {} (some (.index 1)) none) = some report ∧
      Entries.get? report "rule_count" = none) ∧
    FailsWith (homonyms.validateReply {} (some (.name "elm")) none) "NOT_FOUND" := by
  have hn : homonyms.ruleSetNames.Nodup := by decide
  have hw : Field.AllWritable homonyms.fields := by
    simp [Field.AllWritable, homonyms, Value.Writable]
  obtain ⟨hoak, hanswers⟩ := apply_agrees_validate hn {} (.name "oAK") none none none
  obtain ⟨hcycle, -⟩ := apply_agrees_validate hn {} (.index 1) none none none
  obtain ⟨helm, -⟩ := apply_agrees_validate hn {} (.name "elm") none none none
  refine ⟨hanswers hw _ rfl, ?_, hcycle.circular.mp ⟨_, _, rfl, rfl, rfl, rfl⟩,
    helm.notFound.mp ⟨_, _, rfl, rfl, rfl, rfl⟩⟩
  obtain ⟨run, happly⟩ : ∃ run, homonyms.apply (.name "oAK") none none = .ok ⟨"Oak", 2, run⟩ :=
    ⟨_, rfl⟩
  obtain ⟨reply, hreply⟩ := hanswers hw _ rfl
  have happlied :
      homonyms.applyReply (.name "oAK") none none = Application.reply ⟨"Oak", 2, run⟩ := by
    rw [applyReply, happly]
  rw [happlied] at hreply hoak
  obtain ⟨notes, report, name, count, -, hnotes, hreport, hname, hname', hcount, hcount'⟩ :=
    hoak.counts Application.not_failsWith_reply Application.not_failsWith_reply reply hreply
  rw [(Application.of_reply hreply).2.2] at hnotes
  cases hnotes
  cases hname
  cases hcount
  exact ⟨report, hreport, hname', hcount'⟩

end Template

end FieldRules
