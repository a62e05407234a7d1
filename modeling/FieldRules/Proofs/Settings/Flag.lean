import FieldRules.Proofs.Record.Library
import FieldRules.Proofs.Settings.Layers
import FieldRules.Settings.Load

/-! The truth values among the settings, and how they are read from the record of all settings. -/
namespace FieldRules.Settings

open Entries Record

/-- A setting that is a truth value. -/
inductive Flag
  | verbose
  | logJson
  | filterContrapositives
  | suggestMerges
  | enabled
  | loadPlugins

namespace Flag

/-- The section of a flag, if it is in one. -/
def part? : Flag → Option String
  | .verbose | .logJson => none
  | .filterContrapositives | .suggestMerges => some "validation"
  | .enabled | .loadPlugins => some "audit"

/-- The key of a flag in its section, or among all settings. -/
def key : Flag → String
  | .verbose => "verbose"
  | .logJson => "log_json"
  | .filterContrapositives => "filter_contrapositives"
  | .suggestMerges => "suggest_merges"
  | .enabled => "enabled"
  | .loadPlugins => "load_plugins"

/-- The keys that lead to a flag. -/
def path (f : Flag) : List String :=
  match f.part? with
  | none => [f.key]
  | some part => [part, f.key]

/-- The value of a flag. -/
def of : Flag → Settings → Bool
  | .verbose, s => s.verbose
  | .logJson, s => s.logJson
  | .filterContrapositives, s => s.checks.filterContrapositives
  | .suggestMerges, s => s.checks.suggestMerges
  | .enabled, s => s.audit.enabled
  | .loadPlugins, s => s.audit.loadPlugins

theorem key_mem_plainKeys {f : Flag} (h : f.part? = none) : f.key ∈ plainKeys := by
  cases f <;> simp_all [part?, key, plainKeys]

theorem exists_section {f : Flag} {part : String} (h : f.part? = some part) :
    ∃ keys, (part, keys) ∈ sections ∧ f.key ∈ keys := by
  cases f <;> simp_all [part?, key, sections]

theorem not_infix_key (f : Flag) : ¬ sectionMark.toList <:+: f.key.toList := by
  cases f <;> decide +kernel

end Flag

/-- A record of two parts is accepted if both parts are. -/
theorem pair_eq_accepted {α β γ : Type} {mk : α → β → γ} {u : Verdict α} {v : Verdict β} {c : γ}
    (h : mk <$> u <*> v = .accepted c) : ∃ a b, u = .accepted a ∧ v = .accepted b ∧ mk a b = c := by
  obtain ⟨g, b, hg, hb, rfl⟩ := Verdict.seq_eq_accepted.mp h
  obtain ⟨a, ha, rfl⟩ := Verdict.map_eq_accepted.mp hg
  exact ⟨a, b, ha, hb, rfl⟩

variable {lib : Library} {es : Entries Value} {key : String}

section
variable (hlib : lib.Lawful)
include hlib

theorem part_eq_accepted {α : Type} {default a : α} {c : Coercion α}
    (h : lib.part es key [] default c = .accepted a) :
    get? es key = none ∧ a = default ∨ ∃ v, get? es key = some v ∧ c v = .accepted a := by
  have hlook : lookUp es [key] = get? es key := by
    rw [lookUp, List.findSome?_cons, List.findSome?_nil]
    cases get? es key with
    | none => rfl
    | some v => rfl
  simpa only [hlook] using hlib.part_iff.mp h

theorem part_bool {default b : Bool} (h : lib.part es key [] default lib.bool = .accepted b) :
    Clear [key] es ∧ lib.bool ((get? es key).getD (.bool default)) = .accepted b := by
  rcases part_eq_accepted hlib h with ⟨hnone, rfl⟩ | ⟨v, hv, hb⟩
  · rw [hnone]
    exact ⟨by simp [Clear, hnone], hlib.bool_bool b⟩
  · rw [hv]
    refine ⟨fun fs hfs => ?_, hb⟩
    rw [hv] at hfs
    cases hfs
    exact hlib.bool_map fs b hb

/-- A truth value in a section is read from the end of its path, or is what it is by default. -/
theorem section_bool {α : Type} {default a : α} {c : Entries Value → Verdict α} {name : String}
    (field : α → Bool) (h : lib.part es name [] default (lib.record c) = .accepted a)
    (hc : ∀ fs, c fs = .accepted a →
      lib.part fs key [] (field default) lib.bool = .accepted (field a)) :
    Clear [name, key] es ∧
      lib.bool ((valueAt? [name, key] es).getD (.bool (field default))) =
        .accepted (field a) := by
  rcases part_eq_accepted hlib h with ⟨hnone, rfl⟩ | ⟨v, hv, ha⟩
  · rw [valueAt?, hnone]
    exact ⟨by simp [Clear, hnone], hlib.bool_bool _⟩
  · obtain ⟨fs, rfl, hfs⟩ := hlib.record_iff.mp ha
    obtain ⟨hclear, hb⟩ := part_bool hlib (hc fs hfs)
    rw [valueAt?, hv]
    refine ⟨fun v hv' => ⟨fs, ?_, hclear⟩, hb⟩
    rw [hv] at hv'
    exact (Option.some.inj hv').symm

end

theorem checks_of_parts {c : CheckSettings}
    (h : CheckSettings.mk <$> lib.part es "filter_contrapositives" [] true lib.bool
      <*> lib.part es "suggest_merges" [] true lib.bool = .accepted c) :
    lib.part es "filter_contrapositives" [] true lib.bool = .accepted c.filterContrapositives ∧
      lib.part es "suggest_merges" [] true lib.bool = .accepted c.suggestMerges := by
  obtain ⟨a, b, ha, hb, rfl⟩ := pair_eq_accepted h
  exact ⟨ha, hb⟩

theorem audit_of_parts {c : AuditSettings}
    (h : AuditSettings.mk <$> lib.part es "enabled" [] true lib.bool
      <*> lib.part es "load_plugins" [] false lib.bool = .accepted c) :
    lib.part es "enabled" [] true lib.bool = .accepted c.enabled ∧
      lib.part es "load_plugins" [] false lib.bool = .accepted c.loadPlugins := by
  obtain ⟨a, b, ha, hb, rfl⟩ := pair_eq_accepted h
  exact ⟨ha, hb⟩

variable (hlib : lib.Lawful)
include hlib

/-- Settings that are read have in each of their parts what is read from that part. -/
theorem parts_of_read {s : Settings} (h : read lib (.map es) = .accepted s) :
    lib.part es "verbose" [] false lib.bool = .accepted s.verbose ∧
      lib.part es "log_json" [] false lib.bool = .accepted s.logJson ∧
      lib.part es "validation" [] {} (CheckSettings.read lib) = .accepted s.checks ∧
      lib.part es "audit" [] {} (AuditSettings.read lib) = .accepted s.audit := by
  obtain ⟨_, hes, h⟩ := hlib.record_iff.mp h
  cases hes
  simp only [Verdict.seq_eq_accepted] at h
  obtain ⟨_, _, ⟨_, audit, ⟨_, checks, ⟨_, logJson, ⟨_, verbose, hpath, hverbose, rfl⟩, hlog, rfl⟩,
    hchecks, rfl⟩, haudit, rfl⟩, -, rfl⟩ := h
  obtain ⟨path, -, rfl⟩ := Verdict.map_eq_accepted.mp hpath
  exact ⟨hverbose, hlog, hchecks, haudit⟩

/-- A flag of settings that are read has the value at the end of its path, or the default. -/
theorem read_flag {s : Settings} (h : read lib (.map es) = .accepted s) (f : Flag) :
    Clear f.path es ∧
      lib.bool ((valueAt? f.path es).getD (.bool (f.of {}))) = .accepted (f.of s) := by
  obtain ⟨hverbose, hlog, hchecks, haudit⟩ := parts_of_read hlib h
  cases f with
  | verbose => exact part_bool hlib hverbose
  | logJson => exact part_bool hlib hlog
  | filterContrapositives =>
    exact section_bool hlib CheckSettings.filterContrapositives hchecks
      fun _ h => (checks_of_parts h).1
  | suggestMerges =>
    exact section_bool hlib CheckSettings.suggestMerges hchecks fun _ h => (checks_of_parts h).2
  | enabled => exact section_bool hlib AuditSettings.enabled haudit fun _ h => (audit_of_parts h).1
  | loadPlugins =>
    exact section_bool hlib AuditSettings.loadPlugins haudit fun _ h => (audit_of_parts h).2

end FieldRules.Settings
