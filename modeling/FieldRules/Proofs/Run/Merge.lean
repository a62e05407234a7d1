import FieldRules.Proofs.Rule.Suggestion
import FieldRules.Proofs.Run.Idempotence

/-! Neighbouring rules as one. Rules with the same conditions hold together, and go on doing so
while none of them changes what their conditions read; so one rule with all their targets edits the
fields as they do. Only the reasons tell the runs apart. -/
namespace FieldRules

variable {fields : List Field} {names : List String} {block rules : List Rule} {r s merged : Rule}

/-- A rule with the conditions of the first of some rules, and the targets of all in order. -/
structure Rule.MergedFrom (merged first : Rule) (rest : List Rule) : Prop where
  conditions_eq : merged.conditionList = first.conditionList
  targets_eq : merged.targets = (first :: rest).flatMap (·.targets)

/-- The same change, for whatever reason. -/
def Change.SameEdit (c d : Change) : Prop :=
  d = { c with reason := d.reason }

theorem Field.sameEdit_changesTo (f g : Field) (reason reason' : String) :
    List.Forall₂ Change.SameEdit (f.changesTo g reason) (f.changesTo g reason') := by
  unfold changesTo
  refine List.rel_append ?_ ?_
  · split_ifs
    · exact .nil
    · exact .cons rfl .nil
  · split_ifs
    · exact .cons rfl .nil
    · exact .nil

theorem Rule.MergedFrom.applies_eq {first : Rule} {rest : List Rule}
    (h : merged.MergedFrom first rest) (fields : List Field) :
    merged.applies fields = first.applies fields := by
  unfold applies
  rw [h.conditions_eq]

namespace Outcome

variable {o o' p : Outcome} {t : Clause} {i : ℕ}

/-- The same fields, and the same changes for whatever reasons. -/
structure SameEdits (o p : Outcome) : Prop where
  fields_eq : o.fields = p.fields
  changes : List.Forall₂ Change.SameEdit o.changes p.changes

namespace SameEdits

theorem refl (o : Outcome) : o.SameEdits o :=
  ⟨rfl, List.forall₂_same.mpr fun _ _ => rfl⟩

/-- What a target does does not depend on the rule that it belongs to. -/
theorem enforceAt (h : o.SameEdits p) (s : Rule) (ho : enforceAt r t o i = .ok o') :
    ∃ p', Outcome.enforceAt s t p i = .ok p' ∧ o'.SameEdits p' := by
  unfold Outcome.enforceAt
  rw [← h.fields_eq]
  rcases enforceAt_cases ho with ⟨hnone, rfl⟩ | ⟨f, g, hf, hg, rfl⟩
  · rw [hnone]
    exact ⟨p, rfl, h⟩
  · rw [hf]
    dsimp only
    rw [hg]
    exact ⟨_, rfl, rfl, List.rel_append h.changes (Field.sameEdit_changesTo ..)⟩

theorem enforceTargets (h : o.SameEdits p) (s : Rule) {targets : List Clause}
    (ho : targets.foldlM (enforceTarget r) o = .ok o') :
    ∃ p', targets.foldlM (enforceTarget s) p = .ok p' ∧ o'.SameEdits p' := by
  refine Fault.foldlM_rel ho h fun o o' p t _ h ho => ?_
  unfold Outcome.enforceTarget at ho ⊢
  rw [← h.fields_eq]
  exact Fault.foldlM_rel ho h fun _ _ _ _ _ h ho => h.enforceAt s ho

theorem follow (h : o.SameEdits p) (ho : o.follow r = .ok o') :
    ∃ p', p.follow r = .ok p' ∧ o'.SameEdits p' := by
  unfold Outcome.follow at ho ⊢
  obtain ⟨met, hmet, ho⟩ := Fault.bind_eq_ok.mp ho
  rw [← h.fields_eq, hmet]
  cases met with
  | false =>
    cases ho
    exact ⟨p, rfl, h⟩
  | true => exact h.enforceTargets r ho

theorem foldlM_follow (h : o.SameEdits p) (ho : rules.foldlM Outcome.follow o = .ok o') :
    ∃ p', rules.foldlM Outcome.follow p = .ok p' ∧ o'.SameEdits p' :=
  Fault.foldlM_rel ho h fun _ _ _ _ _ h ho => h.follow ho

end SameEdits

/-- A rule that spares another does not decide whether that one holds. -/
theorem applies_follow (hn : o.fields.map (·.name) = names) (hspares : r.Spares names s)
    (ho : o.follow r = .ok o') : s.applies o'.fields = s.applies o.fields := by
  refine Rule.applies_congr ((names_follow ho).trans hn) hn fun c hc i hi => ?_
  have hsingle : [r].foldlM follow o = .ok o' := by simpa using ho
  refine fields_eq_of_not_reached hn (fun r' hr' t ht hreach => ?_) hsingle
  rw [List.mem_singleton.mp hr'] at ht
  exact hspares t ht c hc i hreach hi

/-- Rules that do not hold change nothing. -/
theorem foldlM_follow_of_not_met (hmet : ∀ s ∈ block, s.applies o.fields = .ok false) :
    block.foldlM follow o = .ok o := by
  induction block with
  | nil => rfl
  | cons r block ih =>
    obtain ⟨hr, hblock⟩ := List.forall_mem_cons.mp hmet
    have hfollow : o.follow r = .ok o := by
      unfold follow
      rw [hr]
      rfl
    rw [List.foldlM_cons, hfollow]
    exact ih hblock

/-- Rules that hold, and spare each other, edit as all their targets do, one after another. -/
theorem SameEdits.of_met (h : o.SameEdits p) (s : Rule) (hn : o.fields.map (·.name) = names)
    (hspares : ∀ r ∈ block, ∀ r' ∈ block, r.Spares names r')
    (hmet : ∀ r ∈ block, r.applies o.fields = .ok true)
    (ho : block.foldlM Outcome.follow o = .ok o') :
    ∃ p', (block.flatMap (·.targets)).foldlM (enforceTarget s) p = .ok p' ∧ o'.SameEdits p' := by
  induction block generalizing o p with
  | nil =>
    cases ho
    exact ⟨p, rfl, h⟩
  | cons r block ih =>
    rw [List.foldlM_cons] at ho
    obtain ⟨o₁, ho₁, ho⟩ := Fault.bind_eq_ok.mp ho
    have htargets : r.targets.foldlM (enforceTarget r) o = .ok o₁ := by
      unfold Outcome.follow at ho₁
      rw [hmet r List.mem_cons_self] at ho₁
      exact ho₁
    obtain ⟨p₁, hp₁, h₁⟩ := h.enforceTargets s htargets
    -- the rules that are left still hold
    have hmet₁ : ∀ r' ∈ block, r'.applies o₁.fields = .ok true := by
      intro r' hr'
      have hr'' := List.mem_cons_of_mem r hr'
      rw [applies_follow hn (hspares r List.mem_cons_self r' hr'') ho₁, hmet r' hr'']
    obtain ⟨p', hp', h'⟩ := ih h₁ ((names_follow ho₁).trans hn)
      (fun r₁ hr₁ r₂ hr₂ => hspares r₁ (List.mem_cons_of_mem r hr₁) r₂ (List.mem_cons_of_mem r hr₂))
      hmet₁ ho
    rw [List.flatMap_cons, List.foldlM_append, hp₁]
    exact ⟨p', hp', h'⟩

/-- Over writable fields, rules with the same conditions that spare each other edit as the rule does
that is merged from them. -/
theorem exists_follow_merged {first : Rule} {rest : List Rule} (hw : Field.AllWritable o.fields)
    (hsame : ∀ r ∈ rest, r.SameConditions first)
    (hspares : ∀ r ∈ first :: rest, ∀ s ∈ first :: rest, r.Spares (o.fields.map (·.name)) s)
    (hmerged : merged.MergedFrom first rest)
    (ho : (first :: rest).foldlM follow o = .ok o') :
    ∃ p, o.follow merged = .ok p ∧ o'.SameEdits p := by
  obtain ⟨met, hmet⟩ := first.exists_applies hw
  have hall : ∀ r ∈ first :: rest, r.applies o.fields = .ok met := by
    refine List.forall_mem_cons.mpr ⟨hmet, fun r hr => ?_⟩
    rw [(hsame r hr).applies_eq hw, hmet]
  unfold Outcome.follow
  rw [hmerged.applies_eq, hmet]
  cases met with
  | false =>
    rw [foldlM_follow_of_not_met hall] at ho
    cases ho
    exact ⟨o, rfl, .refl o⟩
  | true =>
    obtain ⟨p, hp, h⟩ := SameEdits.of_met (.refl o) merged rfl hspares hall ho
    rw [← hmerged.targets_eq] at hp
    exact ⟨p, hp, h⟩

end Outcome

variable {first : Rule} {rest earlier later : List Rule}

/-- Neighbouring rules with the same conditions, none of which has a target on a field that they
read, can be merged. -/
theorem Run.sameEdits_of_sameConditions (hw : Field.AllWritable fields)
    (hsame : ∀ r ∈ rest, r.SameConditions first)
    (hspares : ∀ r ∈ first :: rest, ∀ s ∈ first :: rest, r.Spares (fields.map (·.name)) s)
    (hmerged : merged.MergedFrom first rest) (trigger : Option Trigger)
    (before : Option (List Field)) :
    ∃ o p, (Run.of fields (earlier ++ first :: rest ++ later) trigger before).outcome = .ok o ∧
      (Run.of fields (earlier ++ merged :: later) trigger before).outcome = .ok p ∧
      o.SameEdits p := by
  unfold Run.of
  simp only [Run.outcome_after, List.foldlM_append, Fault.bind_eq_ok]
  generalize (trigger.map fun t => t.changes before fields).getD [] = changes
  obtain ⟨above, habove, hwritable⟩ := Run.exists_after (o := { fields, changes }) hw earlier
  obtain ⟨o', ho', hwritable'⟩ := Run.exists_after hwritable (first :: rest)
  obtain ⟨o, ho, -⟩ := Run.exists_after hwritable' later
  rw [Run.outcome_after] at habove ho' ho
  have hnames : above.fields.map (·.name) = fields.map (·.name) :=
    Fault.foldlM_induct (P := fun o => o.fields.map (·.name) = fields.map (·.name)) habove rfl
      fun _ _ _ _ hn h => (Outcome.names_follow h).trans hn
  obtain ⟨p', hp', h'⟩ :=
    Outcome.exists_follow_merged hwritable hsame (hnames ▸ hspares) hmerged ho'
  obtain ⟨p, hp, h⟩ := h'.foldlM_follow ho
  refine ⟨o, p, ⟨o', ⟨above, habove, ho'⟩, ho⟩, ⟨above, habove, ?_⟩, h⟩
  rw [List.foldlM_cons, hp']
  exact hp

/-- Neighbouring rules that a suggestion names, none of which has a target on a field that they
read, can be replaced by one rule with the conditions of the first and the targets of all: the run
gives the same fields, and the same changes but for the reasons. -/
theorem Run.sameEdits_of_mem_mergeSuggestions {m : String}
    (hm : m ∈ Rule.mergeSuggestions (earlier ++ first :: rest ++ later))
    (hnames : Rule.Names m (List.range' earlier.length (rest.length + 1)))
    (hmerged : merged.MergedFrom first rest) (hw : Field.AllWritable fields)
    (hspares : ∀ r ∈ first :: rest, ∀ s ∈ first :: rest, r.Spares (fields.map (·.name)) s)
    (trigger : Option Trigger) (before : Option (List Field)) :
    ∃ o p, (Run.of fields (earlier ++ first :: rest ++ later) trigger before).outcome = .ok o ∧
      (Run.of fields (earlier ++ merged :: later) trigger before).outcome = .ok p ∧
      o.SameEdits p := by
  have hsame : ∀ r ∈ rest, r.SameConditions first := by
    intro r hr
    obtain ⟨k, hk⟩ := List.mem_iff_getElem?.mp hr
    have hlt : k < rest.length := (List.getElem?_eq_some_iff.mp hk).1
    have hr : (earlier ++ first :: rest ++ later)[earlier.length + (k + 1)]? = some r := by
      rw [List.append_assoc, List.getElem?_append_right (by omega), Nat.add_sub_cancel_left,
        List.cons_append, List.getElem?_cons_succ, List.getElem?_append_left hlt, hk]
    have hfirst : (earlier ++ first :: rest ++ later)[earlier.length]? = some first := by
      simp
    have hi : earlier.length + (k + 1) ∈ List.range' earlier.length (rest.length + 1) := by
      rw [List.mem_range'_1]
      omega
    have hj : earlier.length ∈ List.range' earlier.length (rest.length + 1) := by
      rw [List.mem_range'_1]
      omega
    exact hnames.sameConditions hm hi hj hr hfirst
  exact Run.sameEdits_of_sameConditions hw hsame hspares hmerged trigger before

/-- A door, a window of two panes, a heater and a log. -/
def conservatory : List Field := [
  { name := "door", value := .text "open" },
  { name := "window.left", value := .list [.text "shut"], checked := some true },
  { name := "window.right", value := .text "shut, dusty", checked := some true },
  { name := "heater" }, { name := "log", value := .list [] }]

/-- Shuts the door. -/
def latching : Rule := { targets := [⟨"door", .setToValue "shut", false⟩] }

/-- When door and window are shut, turns the heater on. -/
def heating : Rule where
  conditions := some [⟨"door", .setToValue "shut", false⟩, ⟨"window", .contains "shut", false⟩]
  targets := [⟨"heater", .setToValue "low", false⟩]

/-- When window and door are shut, notes it. -/
def noting : Rule where
  conditions := some [⟨"window", .contains "shut", false⟩, ⟨"door", .setToValue "shut", false⟩]
  targets := [⟨"log", .contains "warm", false⟩]

/-- What the two do together. -/
def heatingNoting : Rule where
  conditions := heating.conditions
  targets := [⟨"heater", .setToValue "low", false⟩, ⟨"log", .contains "warm", false⟩]

/-- Takes the dust away once something has been noted. -/
def dusting : Rule where
  conditions := some [⟨"log", .contains "warm", false⟩]
  targets := [⟨"window.right", .contains ", dusty", true⟩]

theorem heating_noting_suggested :
    "Rules 2, 3 can be merged as they have identical conditions." ∈
      Rule.mergeSuggestions ([latching] ++ heating :: [noting] ++ [dusting]) := by
  have hnoting : noting.signature = heating.signature :=
    Rule.signature_eq_iff.mpr ⟨heating.conditionList, by decide, List.forall₂_same.mpr
      fun c _ => .refl c⟩
  have hne : heating.signature ≠ [] := by
    rw [Ne, Rule.signature_eq_nil_iff]
    decide
  have hlatching : latching.signature ≠ heating.signature := by
    rw [Rule.signature_eq_nil_iff.mpr rfl]
    exact hne.symm
  have hdusting : dusting.signature ≠ heating.signature := by
    intro h
    have hlength := (Rule.signature_eq_iff_perm.mp h).length_eq
    exact absurd hlength (by decide)
  have hpositions : Rule.positionsOf [latching, heating, noting, dusting] heating.signature =
      [1, 2] := by
    simp [Rule.positionsOf, List.zipIdx, hnoting, hlatching, hdusting]
  have hagree : ∀ r ∈ [latching, heating, noting, dusting],
      ∀ s ∈ [latching, heating, noting, dusting], ∀ t ∈ r.targets, ∀ u ∈ s.targets,
        t.name = u.name → t.conflict? u = none := by decide
  refine Rule.mem_mergeSuggestions.mpr (.inr ⟨heating.signature, hne, ?_, ?_, ?_⟩)
  · exact hpositions ▸ by decide
  · exact fun r hr _ s hs _ => hagree r hr s hs
  · exact hpositions ▸ by decide

/-- The two can be merged, and only the reason for the note is another: it has the conditions in the
order of the first. -/
theorem heatingNoting_sameEdits :
    ∃ o p, (Run.of conservatory [latching, heating, noting, dusting] none none).outcome = .ok o ∧
      (Run.of conservatory [latching, heatingNoting, dusting] none none).outcome = .ok p ∧
      o.SameEdits p ∧ o.changes ≠ p.changes := by
  have hnames : Rule.Names "Rules 2, 3 can be merged as they have identical conditions."
      (List.range' 1 2) := .inr (by decide)
  have hmerged : heatingNoting.MergedFrom heating [noting] := ⟨rfl, rfl⟩
  have hw : Field.AllWritable conservatory := by
    simp [Field.AllWritable, conservatory, Value.Writable, Value.WritableItems]
  have hspares : ∀ r ∈ [heating, noting], ∀ s ∈ [heating, noting],
      r.Spares (conservatory.map (·.name)) s := by decide
  obtain ⟨o, p, ho, hp, h⟩ := Run.sameEdits_of_mem_mergeSuggestions heating_noting_suggested hnames
    hmerged hw hspares none none
  refine ⟨o, p, ho, hp, h, ?_⟩
  cases ho
  cases hp
  decide

end FieldRules
