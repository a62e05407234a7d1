import FieldRules.Proofs.Run.Enforced
import FieldRules.Proofs.Run.Idempotence
import FieldRules.Proofs.Run.Settling

/-! Neighbouring rules in the opposite order. What a rule does is decided by the fields that it
touches, that is, reads or has a target on. So two rules of which neither has a target on a field
that the other touches do the same in either order. -/
namespace FieldRules

variable {names : List String} {fields : List Field} {r s : Rule} {i : ℕ}

namespace Rule

/-- A target of the rule reaches the field at a position. -/
def Writes (names : List String) (r : Rule) (i : ℕ) : Prop :=
  ∃ t ∈ r.targets, i ∈ Field.reach names t.name

/-- A condition or a target of the rule reaches the field at a position. -/
def Touches (names : List String) (r : Rule) (i : ℕ) : Prop :=
  (∃ c ∈ r.conditionList, i ∈ Field.reach names c.name) ∨ r.Writes names i

/-- Neither of two rules has a target on a field that the other reads or has a target on. -/
structure Independent (names : List String) (r s : Rule) : Prop where
  spares : r.Spares names s
  spared : s.Spares names r
  apart : ∀ t ∈ r.targets, ∀ u ∈ s.targets,
    ∀ i ∈ Field.reach names t.name, i ∉ Field.reach names u.name

namespace Independent

theorem symm (h : Independent names r s) : Independent names s r :=
  ⟨h.spared, h.spares, fun t ht u hu i hi hi' => h.apart u hu t ht i hi' hi⟩

theorem not_touches (h : Independent names r s) (hi : r.Writes names i) : ¬ s.Touches names i := by
  obtain ⟨t, ht, hi⟩ := hi
  rintro (⟨c, hc, hi'⟩ | ⟨u, hu, hi'⟩)
  · exact h.spares t ht c hc i hi hi'
  · exact h.apart t ht u hu i hi hi'

end Independent

theorem apply_singleton (fields : List Field) (r : Rule) :
    apply fields [r] = Outcome.follow { fields } r := by
  simp [apply_eq]

/-- A rule leaves the fields alone that none of its targets reaches. -/
theorem getElem?_apply_singleton {o : Outcome} (hn : fields.map (·.name) = names)
    (h : apply fields [r] = .ok o) (hi : ¬ r.Writes names i) : o.fields[i]? = fields[i]? := by
  rw [apply_eq] at h
  refine Outcome.fields_eq_of_not_reached hn (fun s hs t ht hreach => ?_) h
  rw [List.mem_singleton.mp hs] at ht
  exact hi ⟨t, ht, hreach⟩

end Rule

namespace Outcome

variable {o o' p p' q : Outcome} {S : ℕ → Prop} {t : Clause}

/-- Two outcomes agree on the fields at some positions and on all that has been recorded. -/
structure AgreeOn (S : ℕ → Prop) (o p : Outcome) : Prop where
  names_eq : o.fields.map (·.name) = p.fields.map (·.name)
  agree : Field.Agree S o.fields p.fields
  reasons_eq : o.reasons = p.reasons
  changes_eq : o.changes = p.changes

namespace AgreeOn

theorem enforceAt (h : AgreeOn S o p) (hi : S i) (ho : enforceAt r t o i = .ok o') :
    ∃ p', Outcome.enforceAt r t p i = .ok p' ∧ AgreeOn S o' p' := by
  have hfield := h.agree i hi
  unfold Outcome.enforceAt at ho ⊢
  cases hf : o.fields[i]? with
  | none =>
    rw [hf] at ho hfield
    cases ho
    rw [← hfield]
    exact ⟨p, rfl, h⟩
  | some f =>
    rw [hf] at ho hfield
    obtain ⟨g, hg, ho⟩ := Fault.bind_eq_ok.mp ho
    cases ho
    rw [← hfield]
    dsimp only
    rw [hg]
    have hname : g.name = f.name := Clause.name_of_enforceOn hg
    refine ⟨_, rfl, ?_, fun j hj => ?_, ?_, ?_⟩
    · rw [Field.names_set hf hname, Field.names_set hfield.symm hname, h.names_eq]
    · have hlength : o.fields.length = p.fields.length := by
        simpa using congrArg List.length h.names_eq
      rw [List.getElem?_set, List.getElem?_set, h.agree j hj, hlength]
    · rw [h.reasons_eq]
    · rw [h.changes_eq]

theorem enforceTarget (h : AgreeOn S o p) (hn : o.fields.map (·.name) = names)
    (hS : ∀ i ∈ Field.reach names t.name, S i) (ho : enforceTarget r o t = .ok o') :
    ∃ p', Outcome.enforceTarget r p t = .ok p' ∧ AgreeOn S o' p' := by
  unfold Outcome.enforceTarget at ho ⊢
  rw [← h.names_eq, hn]
  rw [hn] at ho
  exact Fault.foldlM_rel ho h fun _ _ _ i hi hq hstep => hq.enforceAt (hS i hi) hstep

/-- In outcomes that agree on what a rule touches, it does the same. -/
theorem follow (h : AgreeOn (r.Touches names) o p) (hn : o.fields.map (·.name) = names)
    (ho : o.follow r = .ok o') :
    ∃ p', p.follow r = .ok p' ∧ AgreeOn (r.Touches names) o' p' := by
  have hn' : p.fields.map (·.name) = names := h.names_eq.symm.trans hn
  have happlies : r.applies o.fields = r.applies p.fields :=
    Rule.applies_congr hn hn' fun c hc i hi => h.agree i (.inl ⟨c, hc, hi⟩)
  unfold Outcome.follow at ho ⊢
  obtain ⟨met, hmet, ho⟩ := Fault.bind_eq_ok.mp ho
  rw [← happlies, hmet]
  cases met with
  | false =>
    cases ho
    exact ⟨p, rfl, h⟩
  | true =>
    obtain ⟨p', hp', hagree, -⟩ := Fault.foldlM_rel
      (R := fun q q' => AgreeOn (r.Touches names) q q' ∧ q.fields.map (·.name) = names)
      (g := Outcome.enforceTarget r) ho ⟨h, hn⟩ fun q q₁ q' t ht hq hstep => by
        have hS : ∀ i ∈ Field.reach names t.name, r.Touches names i :=
          fun i hi => .inr ⟨t, ht, hi⟩
        obtain ⟨q₁', hq₁', hagree⟩ := hq.1.enforceTarget hq.2 hS hstep
        exact ⟨q₁', hq₁', hagree, (names_enforceTarget ht hstep).trans hq.2⟩
    exact ⟨p', hp', hagree⟩

end AgreeOn

/-- The same fields, under each name the same reason, and the same changes in some order. -/
structure Alike (o p : Outcome) : Prop where
  fields_eq : o.fields = p.fields
  get?_reasons : ∀ name, o.reasons.get? name = p.reasons.get? name
  changes_perm : o.changes.Perm p.changes

theorem Alike.refl (o : Outcome) : o.Alike o :=
  ⟨rfl, fun _ => rfl, .refl _⟩

theorem Alike.andThen (ho : o.Alike o') (hp : p.Alike p') (hd : p.Distinct) (hd' : p'.Distinct) :
    (o.andThen p).Alike (o'.andThen p') where
  fields_eq := hp.fields_eq
  get?_reasons name := by
    unfold Outcome.andThen
    rw [Entries.get?_overlay _ hd, Entries.get?_overlay _ hd', ho.get?_reasons, hp.get?_reasons]
  changes_perm := ho.changes_perm.append hp.changes_perm

end Outcome

namespace Rule

variable {o : Outcome}

theorem exists_writes_of_mem_keys (h : apply fields [r] = .ok o) {name : String}
    (hname : name ∈ o.reasons.keys) :
    ∃ i, (fields.map (·.name))[i]? = some name ∧ r.Writes (fields.map (·.name)) i := by
  obtain ⟨e, he, hreaches⟩ := (mem_keys_apply_iff h name).mp hname
  obtain ⟨hr, ht⟩ := of_mem_enforced he
  obtain ⟨i, hi, hget⟩ := Field.exists_mem_reach_iff.mpr hreaches
  rw [List.mem_singleton.mp hr] at ht
  exact ⟨i, hget, e.2, ht, hi⟩

/-- A rule does the same over two lists of fields that agree on what it touches. -/
theorem exists_apply_agreeOn {fields' : List Field} (hn : fields.map (·.name) = names)
    (hn' : fields'.map (·.name) = names) (hagree : Field.Agree (r.Touches names) fields fields')
    (h : apply fields [r] = .ok o) :
    ∃ p, apply fields' [r] = .ok p ∧ o.AgreeOn (r.Touches names) p := by
  rw [apply_singleton] at h ⊢
  exact Outcome.AgreeOn.follow (o := { fields }) ⟨hn.trans hn'.symm, hagree, rfl, rfl⟩ hn h

theorem Independent.get?_overlay_comm (hrs : Independent names r s)
    (hnames : fields.map (·.name) = names) (hn : names.Nodup) {p : Outcome}
    (ho : apply fields [r] = .ok o) (hp : apply fields [s] = .ok p) (name : String) :
    (Entries.overlay o.reasons p.reasons).get? name =
      (Entries.overlay p.reasons o.reasons).get? name := by
  subst hnames
  rw [Entries.get?_overlay _ (distinct_apply hp), Entries.get?_overlay _ (distinct_apply ho)]
  by_cases hname : name ∈ o.reasons.keys
  · have hfresh : name ∉ p.reasons.keys := by
      intro hname'
      obtain ⟨i, hi, hr⟩ := exists_writes_of_mem_keys ho hname
      obtain ⟨j, hj, hs⟩ := exists_writes_of_mem_keys hp hname'
      have hlt := (List.getElem?_eq_some_iff.mp hi).1
      have hij : i = j := (List.getElem?_inj hlt hn).mp (hi.trans hj.symm)
      exact hrs.not_touches hr (.inr (hij ▸ hs))
    simp [Entries.get?_eq_none hfresh]
  · simp [Entries.get?_eq_none hname]

/-- Two independent rules can be run in the opposite order. -/
theorem Independent.exists_apply_swap (hrs : Independent names r s)
    (hnames : fields.map (·.name) = names) (hn : names.Nodup)
    (h : apply fields ([r] ++ [s]) = .ok o) :
    ∃ p, apply fields ([s] ++ [r]) = .ok p ∧ o.Alike p := by
  obtain ⟨first, second, hfirst, hsecond, rfl⟩ := apply_append_eq_ok.mp h
  have hnames₁ : first.fields.map (·.name) = names := (names_apply hfirst).trans hnames
  -- what the second rule touches is the same before the first one
  have hbefore : ∀ i, ¬ r.Writes names i → first.fields[i]? = fields[i]? :=
    fun i => getElem?_apply_singleton hnames hfirst
  obtain ⟨second', hsecond', hs⟩ := exists_apply_agreeOn hnames₁ hnames
    (fun i hi => hbefore i fun hw => hrs.not_touches hw hi) hsecond
  have hnames₂ : second'.fields.map (·.name) = names := (names_apply hsecond').trans hnames
  -- and what the first rule touches is the same after the second one
  have hafter : ∀ i, ¬ s.Writes names i → second'.fields[i]? = fields[i]? :=
    fun i => getElem?_apply_singleton hnames hsecond'
  obtain ⟨first', hfirst', hr⟩ := exists_apply_agreeOn hnames hnames₂
    (fun i hi => (hafter i fun hw => hrs.symm.not_touches hw hi).symm) hfirst
  refine ⟨second'.andThen first', apply_append_eq_ok.mpr ⟨_, _, hsecond', hfirst', rfl⟩,
    List.ext_getElem? fun i => ?_, fun name => ?_, ?_⟩
  · change second.fields[i]? = first'.fields[i]?
    by_cases hri : r.Writes names i
    · have hsi : ¬ s.Writes names i := fun hw => hrs.not_touches hri (.inr hw)
      rw [getElem?_apply_singleton hnames₁ hsecond hsi, hr.agree i (.inr hri)]
    · rw [getElem?_apply_singleton hnames₂ hfirst' hri]
      by_cases hsi : s.Writes names i
      · exact hs.agree i (.inr hsi)
      · rw [getElem?_apply_singleton hnames₁ hsecond hsi, hbefore i hri, hafter i hsi]
  · unfold Outcome.andThen
    rw [hs.reasons_eq, ← hr.reasons_eq]
    exact hrs.get?_overlay_comm hnames hn hfirst hsecond' name
  · unfold Outcome.andThen
    rw [← hr.changes_eq, ← hs.changes_eq]
    exact List.perm_append_comm

/-- So they can between other rules. -/
theorem Independent.exists_apply_swap_within (hrs : Independent names r s)
    (hnames : fields.map (·.name) = names) (hn : names.Nodup) {earlier later : List Rule}
    (h : apply fields (earlier ++ ([r] ++ [s] ++ later)) = .ok o) :
    ∃ p, apply fields (earlier ++ ([s] ++ [r] ++ later)) = .ok p ∧ o.Alike p := by
  obtain ⟨above, below, habove, hbelow, rfl⟩ := apply_append_eq_ok.mp h
  obtain ⟨pair, rest, hpair, hrest, rfl⟩ := apply_append_eq_ok.mp hbelow
  obtain ⟨pair', hpair', halike⟩ :=
    hrs.exists_apply_swap ((names_apply habove).trans hnames) hn hpair
  have hrest' : apply pair'.fields later = .ok rest := halike.fields_eq ▸ hrest
  have hbelow' : apply above.fields ([s] ++ [r] ++ later) = .ok (pair'.andThen rest) :=
    apply_append_eq_ok.mpr ⟨pair', rest, hpair', hrest', rfl⟩
  have hd := distinct_apply hrest
  refine ⟨_, apply_append_eq_ok.mpr ⟨above, _, habove, hbelow', rfl⟩, ?_⟩
  exact .andThen (.refl above) (.andThen halike (.refl rest) hd hd) (distinct_apply hbelow)
    (distinct_apply hbelow')

end Rule

/-- Two neighbouring rules of which neither has a target on a field that the other reads or has a
target on can change places: the run gives the same fields and reasons, and the same changes in some
order, or it gives no outcome either way. -/
theorem Run.alike_of_independent (hn : (fields.map (·.name)).Nodup)
    (hrs : Rule.Independent (fields.map (·.name)) r s) (earlier later : List Rule)
    (trigger : Option Trigger) (before : Option (List Field)) :
    ((∃ o, (Run.of fields (earlier ++ r :: s :: later) trigger before).outcome = .ok o) ↔
      ∃ p, (Run.of fields (earlier ++ s :: r :: later) trigger before).outcome = .ok p) ∧
    ∀ o p, (Run.of fields (earlier ++ r :: s :: later) trigger before).outcome = .ok o →
      (Run.of fields (earlier ++ s :: r :: later) trigger before).outcome = .ok p →
      o.Alike p := by
  have hswap {o : Outcome} (h : Rule.apply fields (earlier ++ r :: s :: later) = .ok o) :
      ∃ p, Rule.apply fields (earlier ++ s :: r :: later) = .ok p ∧ o.Alike p :=
    hrs.exists_apply_swap_within rfl hn h
  have hback {o : Outcome} (h : Rule.apply fields (earlier ++ s :: r :: later) = .ok o) :
      ∃ p, Rule.apply fields (earlier ++ r :: s :: later) = .ok p ∧ o.Alike p :=
    hrs.symm.exists_apply_swap_within rfl hn h
  simp only [Run.outcome_of, Fault.map_eq_ok]
  refine ⟨⟨?_, ?_⟩, ?_⟩
  · rintro ⟨-, o, ho, -⟩
    obtain ⟨p, hp, -⟩ := hswap ho
    exact ⟨_, p, hp, rfl⟩
  · rintro ⟨-, p, hp, -⟩
    obtain ⟨o, ho, -⟩ := hback hp
    exact ⟨_, o, ho, rfl⟩
  · rintro - - ⟨o, ho, rfl⟩ ⟨p, hp, rfl⟩
    obtain ⟨p', hp', halike⟩ := hswap ho
    cases hp.symm.trans hp'
    exact ⟨halike.fields_eq, halike.get?_reasons, halike.changes_perm.append_left _⟩

/-- A switch, an oven of two parts and a radio. -/
def kitchen : List Field := [
  { name := "switch" }, { name := "oven.heat", value := .text "low" }, { name := "oven.fan" },
  { name := "radio", value := .text "off", checked := some true }]

/-- Turns the switch on. -/
def powering : Rule := { targets := [⟨"switch", .setToValue "on", false⟩] }

/-- Turns the oven on with the switch, and its heat up. -/
def baking : Rule where
  conditions := some [⟨"switch", .set none, false⟩]
  targets := [⟨"oven", .set none, false⟩, ⟨"oven.heat", .contains "high", false⟩]

/-- Turns the radio on with the switch. -/
def tuning : Rule where
  conditions := some [⟨"switch", .set none, false⟩]
  targets := [⟨"radio", .setToValue "on", false⟩]

/-- Turns the radio off when the oven is hot. -/
def hushing : Rule where
  conditions := some [⟨"oven.heat", .contains "high", false⟩]
  targets := [⟨"radio", .set none, true⟩]

/-- Oven and radio can be turned on in either order. -/
theorem baking_alike_tuning :
    (kitchen.map (·.name)).Nodup ∧
    Rule.Independent (kitchen.map (·.name)) baking tuning ∧
    ∃ o p, (Run.of kitchen [powering, baking, tuning, hushing] none none).outcome = .ok o ∧
      (Run.of kitchen [powering, tuning, baking, hushing] none none).outcome = .ok p ∧
      o.Alike p ∧ o.changes ≠ p.changes := by
  have hn : (kitchen.map (·.name)).Nodup := by decide
  have hrs : Rule.Independent (kitchen.map (·.name)) baking tuning :=
    ⟨by decide, by decide, by decide⟩
  obtain ⟨hiff, halike⟩ := Run.alike_of_independent hn hrs [powering] [hushing] none none
  obtain ⟨o, ho⟩ : ∃ o, (Run.of kitchen [powering, baking, tuning, hushing] none none).outcome =
    .ok o := ⟨_, rfl⟩
  obtain ⟨p, hp⟩ := hiff.mp ⟨o, ho⟩
  refine ⟨hn, hrs, o, p, ho, hp, halike o p ho hp, ?_⟩
  cases ho
  cases hp
  decide

end FieldRules
