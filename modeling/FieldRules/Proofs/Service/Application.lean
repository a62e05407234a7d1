import FieldRules.Proofs.Run.Sequel
import FieldRules.Proofs.Service.Selection

/-! Applying a set of rules that extends another: to the fields of the template it does what its own
rules do to the fields that the other set leaves, after what that one has done. -/
namespace FieldRules

open Relation (ReflTransGen TransGen)

/-- An operation answers with an outcome as its data, or with the fault for which there is none. -/
def Gives (answer : Except Failure Reply) : Except Fault Outcome → Prop
  | .error fault => answer = .error (.fault fault)
  | .ok o => ∃ reply, answer = .ok reply ∧ reply.ok = true ∧
      Entries.get? reply.data "fields" = some (.list (o.fields.map Field.toRecord)) ∧
      Entries.get? reply.data "disabled_reasons" =
        some (.map (o.reasons.map fun (name, reason) => (name, .text reason))) ∧
      Entries.get? reply.data "changes" = some (.list (o.changes.map Change.toRecord))

theorem Application.gives_reply (a : Application) : Gives a.reply a.run.outcome := by
  unfold reply
  cases a.run.outcome with
  | error fault => rfl
  | ok o => exact ⟨_, rfl, rfl, rfl, rfl, rfl⟩

namespace Template

variable {t : Template} {s p : RuleSet} {i j : ℕ}

theorem lookUp_index (hs : t.ruleSets[i]? = some s) : t.lookUp (.index i) = some s := by
  simpa [lookUp, ruleSetAt?] using hs

theorem resolution_index (hs : t.ruleSets[i]? = some s) {rules : List Rule}
    (h : t.resolve (.index i) = .ok rules) : t.resolution (.index i) = .ok ⟨s, rules⟩ := by
  have hlt : i < t.ruleSets.length := (List.getElem?_eq_some_iff.mp hs).1
  have hposition : t.position? (.index i) = some i := by simp [position?, hlt]
  rw [resolution, hposition, Option.bind_some, hs, Option.map_some]
  dsimp only
  rw [h]

theorem gives_applyReply (hs : t.ruleSets[i]? = some s) {rules : List Rule}
    (h : t.resolve (.index i) = .ok rules) (before : Option (List Field)) :
    Gives (t.applyReply (.index i) none before) (Rule.apply t.fields rules) := by
  rw [applyReply, apply, resolution_index hs h]
  exact Application.gives_reply ⟨s.name, rules.length, .of t.fields rules none before⟩

theorem exists_resolve_of_no_loop (hn : t.ruleSetNames.Nodup) (hs : t.ruleSets[i]? = some s)
    (hloop : ∀ a, ReflTransGen t.Extends s a → ¬ TransGen t.Extends a a) :
    ∃ rules, t.resolve (.index i) = .ok rules := by
  have hlook := lookUp_index hs
  have hsound := Ascent.Sound.start (mem_of_lookUp hlook)
  obtain ⟨a, hrun, ⟨hback, -⟩ | ⟨-, h⟩⟩ := exists_resolve hlook
  · exact absurd ((hsound.run hrun).loop hn hback) (hloop a.current (hsound.reaches hrun))
  · exact ⟨_, h⟩

/-- A set of rules that extends another, with no loop on the way up, answers with the outcome of
its own rules over the fields that the other one leaves: these fields, the changes after those of
the other set, and the reasons over those of the other set. If no integer is too long, there is
such an outcome. -/
theorem applyReply_extends (hn : t.ruleSetNames.Nodup) (hs : t.ruleSets[i]? = some s)
    (hp : t.ruleSets[j]? = some p) (hext : t.Extends s p)
    (hloop : ∀ a, ReflTransGen t.Extends s a → ¬ TransGen t.Extends a a)
    (before : Option (List Field)) :
    ∃ outcome : Except Fault Outcome,
      Gives (t.applyReply (.index j) none before) outcome ∧
      Gives (t.applyReply (.index i) none before) (do
        let above ← outcome
        let own ← Rule.apply above.fields s.rules
        return {
          fields := own.fields
          reasons := Entries.overlay above.reasons own.reasons
          changes := above.changes ++ own.changes }) ∧
      (Field.AllWritable t.fields → ∃ above own, outcome = .ok above ∧
        Rule.apply above.fields s.rules = .ok own) := by
  obtain ⟨rules, hrules⟩ := exists_resolve_of_no_loop hn hs hloop
  obtain ⟨inherited, hinherited, rfl⟩ :=
    resolve_of_extends hn (lookUp_index hs) hext (lookUp_index hp) hrules
  refine ⟨Rule.apply t.fields inherited, gives_applyReply hp hinherited before, ?_, ?_⟩
  · have h := gives_applyReply hs hrules before
    rwa [Rule.apply_append] at h
  · intro hw
    obtain ⟨above, habove, hw'⟩ := Rule.exists_apply hw inherited
    obtain ⟨own, hown, -⟩ := Rule.exists_apply hw' s.rules
    exact ⟨above, own, habove, hown⟩

/-- A set that empties what the set above it fills, if all is well there. -/
def lowerTerrace : RuleSet where
  name := "lower"
  rules := [{
    conditions := some [⟨"pond", .set none, false⟩]
    targets := [⟨"pond", .contains "carp", true⟩, ⟨"spring", .set none, true⟩] }]
  parent := some "middle"

def middleTerrace : RuleSet where
  name := "middle"
  rules := [{ targets := [⟨"pond", .contains "carp", false⟩, ⟨"spring", .set none, true⟩] }]
  parent := some "upper"

/-- Three sets, each of which extends the next one up. -/
def terraces : Template where
  fields := [{ name := "spring", checked := some true }, { name := "pond.depth" },
    { name := "pond.fish", value := .list [] }]
  ruleSets := [lowerTerrace, middleTerrace,
    { name := "upper", rules := [{ targets := [⟨"pond.depth", .setToValue "deep", false⟩] }] }]

theorem terraces_loopless {s p : RuleSet} (h : TransGen terraces.Extends s p) : s ≠ p := by
  have hstep : ∀ s ∈ terraces.ruleSets, ∀ p ∈ terraces.ruleSets, s.parent = some p.name →
      terraces.ruleSets.idxOf s < terraces.ruleSets.idxOf p := by decide
  have hrise : terraces.ruleSets.idxOf s < terraces.ruleSets.idxOf p := by
    induction h with
    | single h => exact hstep _ h.child_mem _ h.parent_mem h.parent_eq
    | tail _ h ih => exact ih.trans (hstep _ h.child_mem _ h.parent_mem h.parent_eq)
  rintro rfl
  exact lt_irrefl _ hrise

theorem terraces_applyReply : ∃ above own, Rule.apply above.fields lowerTerrace.rules = .ok own ∧
    Gives (terraces.applyReply (.index 1) none none) (.ok above) ∧
    Gives (terraces.applyReply (.index 0) none none) (.ok {
      fields := own.fields
      reasons := Entries.overlay above.reasons own.reasons
      changes := above.changes ++ own.changes }) := by
  have hext : terraces.Extends lowerTerrace middleTerrace := ⟨by decide, by decide, rfl, by decide⟩
  have hw : Field.AllWritable terraces.fields := by
    simp [Field.AllWritable, terraces, Value.Writable, Value.WritableItems]
  obtain ⟨outcome, hmiddle, hlower, hboth⟩ := applyReply_extends (t := terraces) (i := 0) (j := 1)
    (by decide) rfl rfl hext (fun s _ h => terraces_loopless h rfl) none
  obtain ⟨above, own, rfl, hown⟩ := hboth hw
  refine ⟨above, own, hown, hmiddle, ?_⟩
  simpa [hown, bind, Except.bind, pure, Except.pure] using hlower

end Template

end FieldRules
