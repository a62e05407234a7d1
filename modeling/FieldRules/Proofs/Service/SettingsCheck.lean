import FieldRules.Proofs.Fault
import FieldRules.Proofs.Field.Overlay
import FieldRules.Proofs.Run.Pass
import FieldRules.Service.SettingsCheck

/-! The check of settings adds up: each setting is found valid or invalid exactly once, whatever the
rules did to its field, and only the issues and their kinds decide the answer. -/
namespace FieldRules

/-- The entry of the summary of a reply under a key. -/
def Reply.summary? (reply : Reply) (key : String) : Option Value :=
  match Entries.get? reply.data "summary" with
  | some (.map es) => Entries.get? es key
  | _ => none

/-- The field that the record of an issue names, if the issue is of a kind. -/
def SettingsIssue.named? (kind : String) : Value → Option String
  | .map es =>
    match Entries.get? es "type", Entries.get? es "field" with
    | some (.text k), some (.text field) => if k = kind then some field else none
    | _, _ => none
  | _ => none

/-- The fields that the issues of a kind name in a reply. -/
def Reply.named (reply : Reply) (kind : String) : List String :=
  match Entries.get? reply.data "issues" with
  | some (.list records) => records.filterMap (SettingsIssue.named? kind)
  | _ => []

/-- A rule without conditions has a field as a target, and does not ask for the opposite. -/
def Rule.Requires (rules : List Rule) (name : String) : Prop :=
  ∃ r ∈ rules, r.conditionList = [] ∧ ∃ t ∈ r.targets, t.name = name ∧ t.negated = false

theorem Rule.isRequired_iff {rules : List Rule} {name : String} :
    isRequired name rules = true ↔ Requires rules name := by
  simp [isRequired, Requires, isUnconditional]

namespace SettingsIssue

theorem named?_toRecord (kind : String) (i : SettingsIssue) :
    named? kind i.toRecord = if i.kind = kind then some i.field else none := by
  cases i with
  | missing _ _ | invalid _ _ _ | unknown _ => simp [named?, toRecord]

theorem filterMap_named? (kind : String) (issues : List SettingsIssue) :
    (issues.map toRecord).filterMap (named? kind) =
      (issues.filter fun i => i.kind = kind).map (·.field) := by
  induction issues with
  | nil => rfl
  | cons i issues ih =>
    rw [List.map_cons, List.filterMap_cons, named?_toRecord, ih]
    by_cases h : i.kind = kind
    · simp [h]
    · simp [h]

theorem kind_eq_missing {i : SettingsIssue} : i.kind = "missing" ↔ i.isMissing = true := by
  cases i with
  | missing _ _ | invalid _ _ _ | unknown _ => simp [kind, isMissing]

theorem kind_eq_invalid {i : SettingsIssue} : i.kind = "invalid" ↔ i.isInvalid = true := by
  cases i with
  | missing _ _ | invalid _ _ _ | unknown _ => simp [kind, isInvalid]

theorem kind_eq_warning {i : SettingsIssue} : i.kind = "warning" ↔ i.isWarning = true := by
  cases i with
  | missing _ _ | invalid _ _ _ | unknown _ => simp [kind, isWarning]

end SettingsIssue

namespace SettingsCheck

variable {rules : List Rule} {settings : Entries Value} {f : Field} {updated : List Field}
  {finding : Finding} {findings : List Finding}

/-- The setting of a field has to be there. -/
def Demanded (rules : List Rule) (f : Field) : Prop :=
  f.checked = some true ∨ Rule.Requires rules f.name

theorem demanded_iff : (f.isChecked || Rule.isRequired f.name rules) = true ↔ Demanded rules f := by
  simp [Demanded, Field.isChecked, Rule.isRequired_iff]

instance (rules : List Rule) (f : Field) : Decidable (Demanded rules f) :=
  decidable_of_iff _ demanded_iff

/-- What can be found out about the setting of a field. -/
inductive Found (rules : List Rule) (settings : Entries Value) (f : Field) : Finding → Prop
  | valid (h : f.name ∈ Entries.keys settings) : Found rules settings f .valid
  | invalid (h : f.name ∈ Entries.keys settings) (expected actual : String) :
      Found rules settings f (.issue (.invalid f.name expected actual))
  | missing (h : f.name ∉ Entries.keys settings) (hd : Demanded rules f) (expected : String) :
      Found rules settings f (.issue (.missing f.name expected))
  | absent (h : f.name ∉ Entries.keys settings) (hd : ¬ Demanded rules f) :
      Found rules settings f .absent

theorem findValue_cases {value : Value} (h : findValue f value = .ok finding) :
    finding = .valid ∨ ∃ expected actual, finding = .issue (.invalid f.name expected actual) := by
  unfold findValue at h
  split at h
  · cases h
    exact .inl rfl
  · obtain ⟨accepted, -, h⟩ := Fault.bind_eq_ok.mp h
    cases accepted with
    | true =>
      cases h
      exact .inl rfl
    | false =>
      obtain ⟨words, -, h⟩ := Fault.bind_eq_ok.mp h
      obtain ⟨shown, -, h⟩ := Fault.bind_eq_ok.mp h
      cases h
      exact .inr ⟨words, shown, rfl⟩

theorem found_of_find (h : find rules settings f = .ok finding) :
    Found rules settings f finding := by
  unfold find at h
  have hpresent : (Entries.get? settings f.name).isSome = true ↔ f.name ∈ Entries.keys settings :=
    Entries.contains_iff
  cases hget : Entries.get? settings f.name with
  | some value =>
    simp only [hget] at h
    have hmem : f.name ∈ Entries.keys settings := hpresent.mp (by simp [hget])
    rcases findValue_cases h with rfl | ⟨words, shown, rfl⟩
    · exact .valid hmem
    · exact .invalid hmem words shown
  | none =>
    simp only [hget] at h
    have hmem : f.name ∉ Entries.keys settings := fun hmem => by simpa [hget] using hpresent.mpr hmem
    by_cases hd : Demanded rules f
    · rw [if_pos (demanded_iff.mpr hd)] at h
      obtain ⟨words, -, rfl⟩ := Fault.map_eq_ok.mp h
      exact .missing hmem hd words
    · rw [if_neg (mt demanded_iff.mp hd)] at h
      cases h
      exact .absent hmem hd

/-- Of each field whose setting is there, it is found that the setting is valid or that it is not. -/
theorem countP_found (h : List.Forall₂ (Found rules settings) updated findings) :
    findings.countP (· = .valid) + (findings.filterMap Finding.issue?).countP SettingsIssue.isInvalid
      = updated.countP fun f => f.name ∈ Entries.keys settings := by
  induction h with
  | nil => rfl
  | cons hfound _ ih =>
    rw [List.countP_cons, List.countP_cons, List.filterMap_cons, ← ih]
    cases hfound with
    | valid hmem => simp [Finding.issue?, hmem, Nat.add_right_comm]
    | invalid hmem expected actual =>
      simp [Finding.issue?, SettingsIssue.isInvalid, List.countP_cons, hmem, Nat.add_assoc]
    | missing hmem hd expected =>
      simp [Finding.issue?, SettingsIssue.isInvalid, hmem]
    | absent hmem hd => simp [Finding.issue?, hmem]

/-- A setting is missing if it has to be there and is not. -/
theorem missing_found (h : List.Forall₂ (Found rules settings) updated findings) :
    ((findings.filterMap Finding.issue?).filter SettingsIssue.isMissing).map (·.field) =
      (updated.filter fun f => f.name ∉ Entries.keys settings ∧ Demanded rules f).map (·.name) := by
  induction h with
  | nil => rfl
  | cons hfound _ ih =>
    rw [List.filterMap_cons, List.filter_cons]
    cases hfound with
    | valid hmem => simpa [Finding.issue?, hmem] using ih
    | invalid hmem expected actual =>
      simpa [Finding.issue?, List.filter_cons, SettingsIssue.isMissing, hmem] using ih
    | missing hmem hd expected =>
      simpa [Finding.issue?, List.filter_cons, SettingsIssue.isMissing, SettingsIssue.field, hmem, hd]
        using ih
    | absent hmem hd => simpa [Finding.issue?, hmem, hd] using ih

theorem named_reply (c : SettingsCheck) (strict : Bool) (kind : String) :
    (c.reply strict).named kind = (c.issues.filter fun i => i.kind = kind).map (·.field) := by
  rw [← SettingsIssue.filterMap_named?]
  rfl

/-- A check of fields among which each setting has one finds it valid or invalid once. -/
theorem length_eq_countP (hs : (Entries.keys settings).Nodup) (hn : (updated.map (·.name)).Nodup)
    (hall : ∀ name ∈ Entries.keys settings, name ∈ updated.map (·.name)) :
    settings.length = updated.countP fun f => f.name ∈ Entries.keys settings := by
  have hperm : (Entries.keys settings).Perm
      ((updated.map (·.name)).filter (· ∈ Entries.keys settings)) := by
    rw [List.perm_ext_iff_of_nodup hs (hn.filter _)]
    intro name
    rw [List.mem_filter, decide_eq_true_eq]
    exact ⟨fun h => ⟨hall name h, h⟩, And.right⟩
  have hlength := hperm.length_eq
  rw [Entries.keys, List.length_map, ← List.countP_eq_length_filter, List.countP_map] at hlength
  exact hlength

theorem named_nil_iff (c : SettingsCheck) (strict : Bool) (kind : String) :
    (c.reply strict).named kind = [] ↔ c.issues.countP (fun i => i.kind = kind) = 0 := by
  rw [named_reply, List.map_eq_nil_iff, List.countP_eq_length_filter, List.length_eq_zero_iff]

theorem missing_eq (c : SettingsCheck) : c.missing = c.issues.countP fun i => i.kind = "missing" := by
  simp only [missing, SettingsIssue.kind_eq_missing, Bool.decide_eq_true]

theorem invalid_eq (c : SettingsCheck) : c.invalid = c.issues.countP fun i => i.kind = "invalid" := by
  simp only [invalid, SettingsIssue.kind_eq_invalid, Bool.decide_eq_true]

theorem warnings_eq (c : SettingsCheck) :
    c.warnings = c.issues.countP fun i => i.kind = "warning" := by
  simp only [warnings, SettingsIssue.kind_eq_warning, Bool.decide_eq_true]

/-- Settings pass if no issue is of a kind that stands against them. -/
theorem ok_reply_iff (c : SettingsCheck) (strict : Bool) : (c.reply strict).ok = true ↔
    (c.reply strict).named "missing" = [] ∧ (c.reply strict).named "invalid" = [] ∧
      (strict = true → (c.reply strict).named "warning" = []) := by
  rw [named_nil_iff, named_nil_iff, named_nil_iff, ← missing_eq, ← invalid_eq, ← warnings_eq]
  cases strict with
  | true => simp [reply, passes, isValid, and_assoc]
  | false => simp [reply, passes, isValid]

theorem exists_findings {fields : List Field} {c : SettingsCheck}
    (h : of fields updated rules settings = .ok c) : ∃ findings,
      List.Forall₂ (Found rules settings) updated findings ∧ c = {
        issues := findings.filterMap Finding.issue? ++ (unknown fields settings).map .unknown
        total := settings.length
        valid := findings.countP (· = .valid) } := by
  obtain ⟨findings, hfindings, h⟩ := Fault.bind_eq_ok.mp h
  cases h
  exact ⟨findings, (Fault.forall₂_of_mapM hfindings).imp fun _ _ => found_of_find, rfl⟩

theorem length_eq_valid_add_invalid {fields : List Field} {c : SettingsCheck}
    (h : of fields updated rules settings = .ok c) (hs : (Entries.keys settings).Nodup)
    (hn : (updated.map (·.name)).Nodup)
    (hall : ∀ name ∈ Entries.keys settings, name ∈ updated.map (·.name)) :
    settings.length = c.valid + c.invalid := by
  obtain ⟨findings, hfound, rfl⟩ := exists_findings h
  have hunknown : ∀ keys : List String,
      (keys.map SettingsIssue.unknown).countP SettingsIssue.isInvalid = 0 := by
    simp [List.countP_eq_zero, SettingsIssue.isInvalid]
  rw [length_eq_countP hs hn hall, ← countP_found hfound, invalid, List.countP_append, hunknown,
    Nat.add_zero]

theorem named_missing {fields : List Field} {c : SettingsCheck}
    (h : of fields updated rules settings = .ok c) (strict : Bool) :
    (c.reply strict).named "missing" = (updated.filter fun f =>
      f.name ∉ Entries.keys settings ∧ Demanded rules f).map (·.name) := by
  obtain ⟨findings, hfound, rfl⟩ := exists_findings h
  have hunknown : ∀ keys : List String,
      (keys.map SettingsIssue.unknown).filter SettingsIssue.isMissing = [] := by
    simp [List.filter_eq_nil_iff, SettingsIssue.isMissing]
  rw [named_reply, ← missing_found hfound]
  simp only [SettingsIssue.kind_eq_missing, Bool.decide_eq_true, List.filter_append, hunknown,
    List.append_nil]

end SettingsCheck

namespace Template

variable {t : Template} {settings : Entries Value} {ref : RuleSetRef} {strict : Bool}
  {rules : List Rule} {reply : Reply}

/-- What the answer to a check of settings rests on. -/
theorem exists_check (hr : t.rulesFor ref = .ok rules)
    (h : t.settingsReply settings ref strict = .ok reply) : ∃ merged outcome c,
      Field.overlay t.fields settings = .accepted merged ∧ Rule.apply merged rules = .ok outcome ∧
      SettingsCheck.of t.fields outcome.fields rules settings = .ok c ∧ reply = c.reply strict := by
  unfold settingsReply at h
  simp only [hr] at h
  unfold checkSettings at h
  cases hmerged : Field.overlay t.fields settings with
  | refused issues => simp [hmerged, Except.map] at h
  | accepted merged =>
    simp only [hmerged] at h
    cases houtcome : Rule.apply merged rules with
    | error fault => simp [houtcome, bind, Except.bind, Except.mapError, Except.map] at h
    | ok outcome =>
      simp only [houtcome, bind, Except.bind] at h
      cases hcheck : SettingsCheck.of t.fields outcome.fields rules settings with
      | error fault => simp [hcheck, Except.mapError, Except.map] at h
      | ok c =>
        simp only [hcheck, Except.mapError, Except.map, Except.ok.injEq] at h
        exact ⟨merged, outcome, c, rfl, houtcome, hcheck, h.symm⟩

/-- The answer to a check of settings adds up: each setting is valid or invalid, the missing ones are
those of fields of the template that have to be there, and the answer is a yes if no issue is of a
kind that stands against it. -/
theorem settingsReply_adds_up (hs : (Entries.keys settings).Nodup) (hr : t.rulesFor ref = .ok rules)
    (h : t.settingsReply settings ref strict = .ok reply) :
    ∃ (merged : List Field) (outcome : Outcome) (valid invalid : ℕ),
      Field.overlay t.fields settings = .accepted merged ∧ Rule.apply merged rules = .ok outcome ∧
      (reply.summary? "total_fields" = some (.int settings.length) ∧
        reply.summary? "valid_fields" = some (.int valid) ∧
        reply.summary? "invalid_values" = some (.int invalid) ∧
        settings.length = valid + invalid ∧ (reply.named "invalid").length = invalid) ∧
      ((reply.named "missing").Nodup ∧ ∀ name, name ∈ reply.named "missing" ↔
        name ∈ t.fields.map (·.name) ∧ name ∉ Entries.keys settings ∧
          ((∃ f ∈ outcome.fields, f.name = name ∧ f.checked = some true) ∨
            Rule.Requires rules name)) ∧
      (reply.ok = true ↔ reply.named "missing" = [] ∧ reply.named "invalid" = [] ∧
        (strict = true → reply.named "warning" = [])) := by
  obtain ⟨merged, outcome, c, hmerged, houtcome, hcheck, rfl⟩ := exists_check hr h
  obtain ⟨hn, hmem⟩ := Field.names_overlay hmerged
  rw [← Rule.names_apply houtcome] at hn hmem
  have htotal : c.total = settings.length := by
    obtain ⟨_, -, rfl⟩ := SettingsCheck.exists_findings hcheck
    rfl
  have hlength := SettingsCheck.length_eq_valid_add_invalid hcheck hs hn
    fun name hname => (hmem name).mpr (.inr hname)
  have hmissing := SettingsCheck.named_missing hcheck strict
  refine ⟨merged, outcome, c.valid, c.invalid, hmerged, houtcome, ⟨?_, rfl, rfl, hlength, ?_⟩,
    ⟨?_, ?_⟩, c.ok_reply_iff strict⟩
  · rw [← htotal]
    rfl
  · rw [SettingsCheck.named_reply, List.length_map, SettingsCheck.invalid_eq,
      List.countP_eq_length_filter]
  · rw [hmissing]
    exact hn.sublist (List.filter_sublist.map _)
  · intro name
    rw [hmissing, List.mem_map]
    simp only [List.mem_filter, decide_eq_true_eq]
    constructor
    · rintro ⟨f, ⟨hf, habsent, hd⟩, rfl⟩
      have htemplate := ((hmem f.name).mp (List.mem_map_of_mem hf)).resolve_right habsent
      exact ⟨htemplate, habsent, hd.imp_left fun hchecked => ⟨f, hf, rfl, hchecked⟩⟩
    · rintro ⟨htemplate, habsent, ⟨f, hf, rfl, hchecked⟩ | hrequires⟩
      · exact ⟨f, ⟨hf, habsent, .inl hchecked⟩, rfl⟩
      · obtain ⟨f, hf, rfl⟩ := List.mem_map.mp ((hmem name).mpr (.inl htemplate))
        exact ⟨f, ⟨hf, habsent, .inr hrequires⟩, rfl⟩

/-- A field that comes twice, and rules that need one field and take another out. -/
def lock : Template where
  fields := [{ name := "gate", range := "up||down" }, { name := "sluice" },
    { name := "gate", value := .int 1, range := "open||shut" }, { name := "keeper" }]
  ruleSets := [{
    name := "flood"
    rules := [{ targets := [⟨"sluice", .set none, true⟩, ⟨"keeper", .set none, false⟩] }] }]

/-- A setting of a field, one below it and one of no field. -/
def lockSettings : Entries Value :=
  [("gate", .text "up"), ("gate.speed", .int 3), ("lamp", .bool true)]

theorem lock_adds_up : ∃ reply, lock.settingsReply lockSettings (.index 0) true = .ok reply ∧
    reply.ok = false ∧ "keeper" ∈ reply.named "missing" ∧ ∃ valid invalid : ℕ,
      reply.summary? "valid_fields" = some (.int valid) ∧
      reply.summary? "invalid_values" = some (.int invalid) ∧ 3 = valid + invalid := by
  obtain ⟨rules, hrules⟩ : ∃ rules, lock.rulesFor (.index 0) = .ok rules := ⟨_, rfl⟩
  obtain ⟨reply, hreply⟩ :
      ∃ reply, lock.settingsReply lockSettings (.index 0) true = .ok reply := ⟨_, rfl⟩
  obtain ⟨merged, outcome, valid, invalid, -, -, ⟨-, hvalid, hinvalid, htotal, -⟩,
    ⟨-, hmissing⟩, hok⟩ := settingsReply_adds_up (by decide) hrules hreply
  have hkeeper : "keeper" ∈ reply.named "missing" := by
    have hrequires : Rule.Requires rules "keeper" := by
      cases hrules
      exact ⟨_, List.mem_singleton.mpr rfl, rfl, ⟨"keeper", .set none, false⟩, by decide, rfl, rfl⟩
    exact (hmissing "keeper").mpr ⟨by decide, by decide, .inr hrequires⟩
  refine ⟨reply, hreply, ?_, hkeeper, valid, invalid, hvalid, hinvalid, htotal⟩
  rw [Bool.eq_false_iff]
  intro hpasses
  rw [(hok.mp hpasses).1] at hkeeper
  cases hkeeper

end Template

end FieldRules
