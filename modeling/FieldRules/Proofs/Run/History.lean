import FieldRules.Proofs.Run.Reach
import FieldRules.Proofs.Run.Replay

/-! The changes that a run records lead from the fields before it to those after it. Each of them
changes something, but for those of a bare `nan`, which counts as changed whenever it is kept. -/
namespace FieldRules

variable {fields : List Field} {rules : List Rule} {o o' : Outcome} {r : Rule}

/-- The changes between two states of a field lead from the one to the other. -/
theorem Change.leads_changesTo {f g : Field} {i : ℕ} (hn : (fields.map (·.name)).Nodup)
    (hf : fields[i]? = some f) (hg : g = { f with value := g.value, checked := g.checked })
    (hsame : Value.changed f.value g.value = false → g.value = f.value) (reason : String) :
    Leads fields (f.changesTo g reason) (fields.set i g) := by
  obtain ⟨hlt, hget⟩ := List.getElem?_eq_some_iff.mp hf
  -- first the mark is changed, then the value
  let f₁ := f.put .checked (.ofMark g.checked)
  have hmark : Leads fields (if f.checked = g.checked then []
      else [⟨f.name, .checked, .ofMark f.checked, .ofMark g.checked, reason⟩])
      (fields.set i f₁) := by
    split_ifs with hmarks
    · have hf₁ : f₁ = f := by simp [f₁, Field.put, ← hmarks]
      rw [hf₁, ← hget, List.set_getElem_self]
      rfl
    · exact Leads.single hn hf .checked (.ofMark g.checked) reason
  have hn₁ : ((fields.set i f₁).map (·.name)).Nodup := by
    rwa [Field.names_set hf (f.name_put _ _)]
  have hf₁ : (fields.set i f₁)[i]? = some f₁ := by simp [hlt]
  have hput : f₁.put .value g.value = g := by
    rw [hg]
    simp [f₁, Field.put]
  have hvalue : Leads (fields.set i f₁) (if Value.changed f.value g.value = true then
      [⟨f.name, .value, f.value, g.value, reason⟩] else []) (fields.set i g) := by
    split_ifs with hchanged
    · have h := Leads.single hn₁ hf₁ .value g.value reason
      rwa [hput, List.set_set] at h
    · have hkept : g.value = f.value := hsame (by simpa using hchanged)
      have hg₁ : g = f₁ := by
        rw [← hput, hkept]
        exact f₁.put_get .value
      rw [hg₁]
      rfl
  exact hmark.append hvalue

/-- A change without a difference is that of a `nan` that was kept. -/
theorem Change.eq_nan_of_mem_changesTo {f g : Field} {reason : String} {c : Change}
    (hk : f.value.Keyed) (hc : c ∈ f.changesTo g reason) (h : c.old = c.new) :
    c.field = f.name ∧ c.property = .value ∧ f.value = .double .nan ∧ c.new = .double .nan := by
  rcases List.mem_append.mp hc with hc | hc
  · split_ifs at hc with hsame
    · cases hc
    · rw [List.mem_singleton.mp hc] at h
      have hmark := congrArg Value.mark? h
      rw [Value.mark?_ofMark, Value.mark?_ofMark] at hmark
      exact absurd hmark hsame
  · split_ifs at hc with hchanged
    · rw [List.mem_singleton.mp hc] at h ⊢
      dsimp only at h
      rw [← h] at hchanged ⊢
      have hnan := Value.eq_nan_of_changed_self hk hchanged
      exact ⟨rfl, rfl, hnan, hnan⟩
    · cases hc

/-- What holds of a run over some fields at every step. -/
structure Outcome.Recorded (fields : List Field) (o : Outcome) : Prop where
  names : o.fields.map (·.name) = fields.map (·.name)
  leads : Change.Leads fields o.changes o.fields
  keyed : ∀ f ∈ o.fields, f.value.Keyed
  nan : ∀ f ∈ o.fields, f.value = .double .nan →
    ∃ f' ∈ fields, f'.name = f.name ∧ f'.value = .double .nan
  idle : ∀ c ∈ o.changes, c.old = c.new → c.property = .value ∧ c.new = .double .nan ∧
    ∃ f ∈ fields, f.name = c.field ∧ f.value = .double .nan

namespace Outcome.Recorded

theorem init (hk : ∀ f ∈ fields, f.value.Keyed) : Recorded fields { fields } where
  names := rfl
  leads := rfl
  keyed := hk
  nan f hf hv := ⟨f, hf, rfl, hv⟩
  idle _ hc := absurd hc List.not_mem_nil

theorem step (hn : (fields.map (·.name)).Nodup) (h : Recorded fields o) (hs : Step r o o') :
    Recorded fields o' := by
  have hnames := hs.names_eq.trans h.names
  obtain @⟨t, i, f, g, ht, hi, hf, hg⟩ := hs
  have hmem : f ∈ o.fields := List.mem_of_getElem? hf
  have hshape := Clause.eq_of_enforceOn hg
  have hb := Clause.becomes_of_enforceOn hg
  have hname : g.name = f.name := by rw [hshape]
  refine ⟨hnames, ?_, ?_, ?_, ?_⟩
  · exact h.leads.append (Change.leads_changesTo (h.names ▸ hn) hf hshape hb.eq_of_unchanged _)
  · intro f' hf'
    rcases List.mem_or_eq_of_mem_set hf' with hf' | rfl
    · exact h.keyed f' hf'
    · exact hb.keyed (h.keyed f hmem)
  · intro f' hf' hv
    rcases List.mem_or_eq_of_mem_set hf' with hf' | rfl
    · exact h.nan f' hf' hv
    · rw [hname]
      exact h.nan f hmem (hb.eq_nan hv)
  · intro c hc hold
    rcases List.mem_append.mp hc with hc | hc
    · exact h.idle c hc hold
    · obtain ⟨hfield, hproperty, hv, hnew⟩ :=
        Change.eq_nan_of_mem_changesTo (h.keyed f hmem) hc hold
      rw [hfield]
      exact ⟨hproperty, hnew, h.nan f hmem hv⟩

end Outcome.Recorded

theorem Rule.recorded_apply (hn : (fields.map (·.name)).Nodup)
    (hk : ∀ f ∈ fields, f.value.Keyed) (h : Rule.apply fields rules = .ok o) :
    o.Recorded fields :=
  Rule.apply_induct h (.init hk) fun _ _ _ _ hs hrec => hrec.step hn hs

/-- A rule that marks a field with the value `nan` records a change of that value. -/
theorem Rule.exists_idle_change (hn : (fields.map (·.name)).Nodup) {f : Field} (hf : f ∈ fields)
    (hv : f.value = .double .nan) : ∃ rules o, Rule.apply fields rules = .ok o ∧
      ∃ c ∈ o.changes, c.old = c.new := by
  obtain ⟨i, hi⟩ := List.mem_iff_getElem?.mp hf
  have hreach : Field.reach (fields.map (·.name)) f.name = [i] :=
    Field.reach_eq_singleton hn (by simp [hi])
  let t : Clause := ⟨f.name, .set none, false⟩
  let r : Rule := { targets := [t] }
  let g : Field := { f with checked := some true }
  let c : Change := ⟨f.name, .value, f.value, f.value, r.sentenceFor f.name⟩
  let o : Outcome := {
    fields := fields.set i g
    reasons := Entries.insert [] f.name (r.sentenceFor f.name)
    changes := f.changesTo g (r.sentenceFor f.name) }
  have hstep : Outcome.enforceTarget r { fields } t = .ok o := by
    unfold Outcome.enforceTarget
    dsimp only [t]
    rw [hreach, List.foldlM_cons]
    simp only [Outcome.enforceAt, hi]
    rfl
  have happly : Rule.apply fields [r] = .ok o := by
    rw [Rule.apply_eq, List.foldlM_cons]
    change (Outcome.enforceTarget r { fields } t >>= pure) >>= pure = _
    rw [hstep]
    rfl
  have hchanged : Value.changed f.value g.value = true := by simp [g, hv, Value.changed]
  have hc : c ∈ o.changes := by
    apply List.mem_append_right
    rw [if_pos hchanged]
    exact List.mem_singleton.mpr rfl
  exact ⟨[r], o, happly, c, hc, rfl⟩

/-- Made again in order, the changes of a run lead from the fields before it to those after it, and
each finds the old value of its property; taken back in the opposite order they lead back. The two
values of a change differ, except where a bare `nan` was kept. So they differ in all changes of all
runs exactly when no field holds a bare `nan`. -/
theorem Rule.apply_history (hn : (fields.map (·.name)).Nodup)
    (hk : ∀ f ∈ fields, f.value.Keyed) :
    (∀ rules o, Rule.apply fields rules = .ok o →
      o.changes.foldl Change.redo fields = o.fields ∧
      (∀ before c after, o.changes = before ++ c :: after →
        c.Holds (before.foldl Change.redo fields)) ∧
      (∀ c ∈ o.changes, c.old = c.new ↔
        c.property = .value ∧ c.old = .double .nan ∧ c.new = .double .nan) ∧
      o.changes.reverse.foldl Change.undo o.fields = fields) ∧
    ((∀ rules o, Rule.apply fields rules = .ok o → ∀ c ∈ o.changes, c.old ≠ c.new) ↔
      ∀ f ∈ fields, f.value ≠ .double .nan) := by
  refine ⟨fun rules o h => ?_, ?_, ?_⟩
  · obtain ⟨-, hleads, -, -, hidle⟩ := Rule.recorded_apply hn hk h
    refine ⟨hleads.foldl_redo, ?_, ?_, hleads.foldl_undo hn⟩
    · intro before c after hsplit
      rw [hsplit] at hleads
      exact hleads.holds
    · intro c hc
      constructor
      · intro hold
        obtain ⟨hproperty, hnew, -⟩ := hidle c hc hold
        exact ⟨hproperty, hold.trans hnew, hnew⟩
      · rintro ⟨-, hold, hnew⟩
        exact hold.trans hnew.symm
  · intro hall f hf hv
    obtain ⟨rules, o, h, c, hc, hold⟩ := Rule.exists_idle_change hn hf hv
    exact hall rules o h c hc hold
  · intro hnan rules o h c hc hold
    obtain ⟨-, -, f, hf, -, hv⟩ := (Rule.recorded_apply hn hk h).idle c hc hold
    exact hnan f hf hv

/-- A text, a list and a number that is none. -/
def drafts : List Field := [
  { name := "a", value := .text "old" },
  { name := "b.c", value := .list [.text "x", .text "y"], checked := some true },
  { name := "b.d", value := .double .nan }]

/-- Sets `a`, and then takes `x` out of all fields under `b`. -/
def edits : List Rule := [
  { targets := [⟨"a", .setToValue "new", false⟩, ⟨"b", .contains "x", true⟩] }]

theorem drafts_history : ∃ o, Rule.apply drafts edits = .ok o ∧
    o.changes.foldl Change.redo drafts = o.fields ∧
    o.changes.reverse.foldl Change.undo o.fields = drafts := by
  have hn : (drafts.map (·.name)).Nodup := by decide
  have hk : ∀ f ∈ drafts, f.value.Keyed := by
    simp [drafts, Value.Keyed, Value.KeyedItems]
  obtain ⟨o, ho⟩ : ∃ o, Rule.apply drafts edits = .ok o := ⟨_, rfl⟩
  obtain ⟨hredo, -, -, hundo⟩ := (Rule.apply_history hn hk).1 edits o ho
  exact ⟨o, ho, hredo, hundo⟩

example : ∃ o, Rule.apply [{ name := "a", value := .double .nan, checked := some true }]
      [{ targets := [⟨"a", .set none, false⟩] }] = .ok o ∧
    o.changes.map (fun c => (c.property, c.old, c.new)) =
      [(.value, .double .nan, .double .nan)] :=
  ⟨_, rfl, rfl⟩

end FieldRules
