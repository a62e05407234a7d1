import FieldRules.Field.Overlay
import FieldRules.Proofs.Entries
import FieldRules.Proofs.Record.Verdict

/-! Settings laid over fields: every name of a field or of a setting is there, and each once. -/
namespace FieldRules.Field

open Record

variable {lib : Library} {fields merged : List Field} {es out : Entries Field}
  {settings : Entries Value} {name : String}

/-- Fields under their own names, each name once. -/
structure Keyed (es : Entries Field) : Prop where
  nodup : (Entries.keys es).Nodup
  name_eq : ∀ e ∈ es, e.2.name = e.1

theorem Keyed.names (h : Keyed es) : es.map (·.2.name) = Entries.keys es :=
  List.map_congr_left h.name_eq

theorem Keyed.insert (h : Keyed es) (f : Field) : Keyed (Entries.insert es f.name f) where
  nodup := Entries.nodup_keys_insert h.nodup
  name_eq := by
    intro e he
    rcases Entries.mem_of_mem_insert he with rfl | he
    · rfl
    · exact h.name_eq e he

theorem Keyed.name_of_get? (h : Keyed es) {f : Field} (hf : Entries.get? es name = some f) :
    f.name = name :=
  h.name_eq _ (Entries.mem_of_get? hf)

theorem Keyed.overlay (hes : Keyed es) (fields : List Field) :
    Keyed (Entries.overlay es (fields.map fun f => (f.name, f))) ∧
      ∀ name, name ∈ Entries.keys (Entries.overlay es (fields.map fun f => (f.name, f))) ↔
        name ∈ Entries.keys es ∨ name ∈ fields.map (·.name) := by
  unfold Entries.overlay
  induction fields generalizing es with
  | nil => exact ⟨hes, by simp⟩
  | cons f fields ih =>
    obtain ⟨hkeyed, hmem⟩ := ih (hes.insert f)
    refine ⟨hkeyed, fun name => (hmem name).trans ?_⟩
    rw [Entries.mem_keys_insert, List.map_cons, List.mem_cons, or_assoc, or_left_comm]

theorem keyed_checkedByName (fields : List Field) : Keyed (checkedByName fields) ∧
    ∀ name, name ∈ Entries.keys (checkedByName fields) ↔ name ∈ fields.map (·.name) := by
  have hempty : Keyed [] := ⟨List.nodup_nil, by simp⟩
  have hover := hempty.overlay (fields.map fun f => { f with checked := some true })
  simpa [checkedByName, Entries.ofPairs, Entries.keys, Function.comp_def] using hover

/-- One setting after another is put over the field of its name, or becomes a field. -/
theorem Keyed.overlayEntries (hes : Keyed es)
    (h : Field.overlayEntries lib es settings = .accepted out) : Keyed out ∧
      ∀ name, name ∈ Entries.keys out ↔ name ∈ Entries.keys es ∨ name ∈ Entries.keys settings := by
  induction settings generalizing es with
  | nil =>
    cases h
    exact ⟨hes, by simp [Entries.keys]⟩
  | cons e settings ih =>
    obtain ⟨key, value⟩ := e
    have hstep : ∃ f : Field, f.name = key ∧
        Field.overlayEntries lib (Entries.insert es key f) settings = .accepted out := by
      rw [Field.overlayEntries] at h
      cases hget : Entries.get? es key with
      | some f =>
        simp only [hget] at h
        have hname : f.name = key := hes.name_of_get? hget
        exact ⟨{ f with value, checked := some true }, hname, h⟩
      | none =>
        simp only [hget] at h
        obtain ⟨value, -, h⟩ := Verdict.andThen_eq_accepted.mp h
        exact ⟨_, rfl, h⟩
    obtain ⟨f, rfl, hrest⟩ := hstep
    obtain ⟨hout, hmem⟩ := ih (hes.insert f) hrest
    refine ⟨hout, fun name => (hmem name).trans ?_⟩
    rw [Entries.mem_keys_insert, Entries.keys_cons, List.mem_cons, or_assoc, or_left_comm]

/-- Merged fields have the names of the fields and of the settings. -/
theorem names_overlay (h : overlay fields settings lib = .accepted merged) :
    (merged.map (·.name)).Nodup ∧ ∀ name, name ∈ merged.map (·.name) ↔
      name ∈ fields.map (·.name) ∨ name ∈ Entries.keys settings := by
  obtain ⟨out, hout, rfl⟩ := Verdict.map_eq_accepted.mp h
  obtain ⟨hkeyed, hmem⟩ := keyed_checkedByName fields
  obtain ⟨hkeyed', hmem'⟩ := hkeyed.overlayEntries hout
  have hnames : (out.map (·.2)).map (·.name) = Entries.keys out := by
    rw [List.map_map]
    exact hkeyed'.names
  rw [hnames]
  exact ⟨hkeyed'.nodup, fun name => (hmem' name).trans (or_congr_left (hmem name))⟩

end FieldRules.Field
