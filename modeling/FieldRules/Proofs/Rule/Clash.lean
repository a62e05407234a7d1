import FieldRules.Proofs.Rule.Contradiction
import FieldRules.Proofs.Rule.Signature

/-! The number of contradictions that are found. Each stands for two targets, told apart by their
places, that clash: no pair is missed, and none is counted twice. -/
namespace FieldRules

/-- Targets of one name are in no conflict exactly when they ask the same. -/
theorem Clause.conflict?_eq_none_iff_asksAs {s t : Clause} (hname : s.name = t.name) :
    s.conflict? t = none ↔ s.AsksAs t := by
  rw [conflict?_eq_none_iff]
  obtain ⟨sname, sdemand, snegated⟩ := s
  obtain ⟨tname, tdemand, tnegated⟩ := t
  constructor
  · rintro ⟨hnegated, hstate, hsubject⟩
    refine ⟨hname, hstate, hnegated, fun hset => ?_⟩
    cases sdemand <;> cases tdemand <;>
      simp_all [state, Demand.state, Demand.subject?, Demand.value?]
  · rintro ⟨-, hstate, hnegated, hvalue⟩
    refine ⟨hnegated, hstate, ?_⟩
    cases sdemand <;> cases tdemand <;>
      simp_all [state, Demand.state, Demand.subject?, Demand.value?]

namespace Rule

variable {rules : List Rule} {r s : Rule} {t u : Clause} {p q : ℕ × ℕ}

/-- A rule and a target of it stand at a place: the position of the rule among all, and that of the
target among those of the rule. -/
def TargetAt (rules : List Rule) (p : ℕ × ℕ) (r : Rule) (t : Clause) : Prop :=
  rules[p.1]? = some r ∧ r.targets[p.2]? = some t

theorem TargetAt.unique (h : TargetAt rules p r t) (h' : TargetAt rules p s u) :
    r = s ∧ t = u := by
  have hr : r = s := Option.some.inj (h.1.symm.trans h'.1)
  subst hr
  exact ⟨rfl, Option.some.inj (h.2.symm.trans h'.2)⟩

/-- The targets at two places have one name and stand in rules with the same conditions, and do not
ask the same. -/
def Clash (rules : List Rule) (p q : ℕ × ℕ) : Prop :=
  ∃ r t s u, TargetAt rules p r t ∧ TargetAt rules q s u ∧
    r.SameConditions s ∧ t.name = u.name ∧ ¬ t.AsksAs u

theorem Clash.symm (h : Clash rules p q) : Clash rules q p := by
  obtain ⟨r, t, s, u, hp, hq, hrs, hname, hask⟩ := h
  exact ⟨s, u, r, t, hq, hp, SameConditions.symm hrs, hname.symm, fun h => hask h.symm⟩

theorem Clash.ne (h : Clash rules p q) : p ≠ q := by
  obtain ⟨r, t, s, u, hp, hq, -, -, hask⟩ := h
  rintro rfl
  obtain ⟨-, rfl⟩ := hp.unique hq
  exact hask (.refl t)

/-- A target with its rule and its place. -/
structure Placed where
  place : ℕ × ℕ
  rule : Rule
  target : Clause

/-- The targets of all rules, in order. -/
def placed (rules : List Rule) : List Placed :=
  rules.zipIdx.flatMap fun a => a.1.targets.zipIdx.map fun b => ⟨(a.2, b.2), a.1, b.1⟩

theorem mem_placed {a : Placed} : a ∈ placed rules ↔ TargetAt rules a.place a.rule a.target := by
  obtain ⟨⟨i, j⟩, r, t⟩ := a
  simp only [placed, List.mem_flatMap, List.mem_map, Prod.exists, List.mk_mem_zipIdx_iff_getElem?,
    Placed.mk.injEq, Prod.mk.injEq, TargetAt]
  constructor
  · rintro ⟨r, i, hr, t, j, ht, ⟨rfl, rfl⟩, rfl, rfl⟩
    exact ⟨hr, ht⟩
  · rintro ⟨hr, ht⟩
    exact ⟨r, i, hr, t, j, ht, ⟨rfl, rfl⟩, rfl, rfl⟩

theorem nodup_places (rules : List Rule) : ((placed rules).map (·.place)).Nodup := by
  unfold placed
  simp only [List.map_flatMap, List.map_map, Function.comp_def]
  rw [List.nodup_flatMap]
  constructor
  · rintro ⟨r, i⟩ -
    have hpositions : (r.targets.zipIdx.map (·.2)).Nodup := by
      rw [List.zipIdx_map_snd]
      exact List.nodup_range'
    have hmap := hpositions.map (Prod.mk_right_injective i)
    rwa [List.map_map] at hmap
  · have hpositions : (rules.zipIdx.map (·.2)).Nodup := by
      rw [List.zipIdx_map_snd]
      exact List.nodup_range'
    refine (List.pairwise_map.mp hpositions).imp fun {a b} hne p hp hq => hne ?_
    obtain ⟨_, _, ha⟩ := List.mem_map.mp hp
    obtain ⟨_, _, hb⟩ := List.mem_map.mp hq
    exact congrArg Prod.fst (ha.trans hb.symm)

/-- What the search finds out about two targets. -/
def clashes (e : Placed × Placed) : Bool :=
  e.1.rule.signature = e.2.rule.signature &&
    (e.1.target.name = e.2.target.name && (e.1.target.conflict? e.2.target).isSome)

theorem clashes_iff {a b : Placed} (ha : a ∈ placed rules) (hb : b ∈ placed rules) :
    clashes (a, b) = true ↔ Clash rules a.place b.place := by
  rw [mem_placed] at ha hb
  have hconflict : a.target.name = b.target.name →
      ((a.target.conflict? b.target).isSome = true ↔ ¬ a.target.AsksAs b.target) := by
    intro hname
    rw [← Clause.conflict?_eq_none_iff_asksAs hname, Option.isSome_iff_ne_none]
  simp only [clashes, Bool.and_eq_true, decide_eq_true_eq, signature_eq_iff]
  constructor
  · rintro ⟨hrs, hname, hsome⟩
    exact ⟨_, _, _, _, ha, hb, hrs, hname, (hconflict hname).mp hsome⟩
  · rintro ⟨r, t, s, u, hp, hq, hrs, hname, hask⟩
    obtain ⟨rfl, rfl⟩ := hp.unique ha
    obtain ⟨rfl, rfl⟩ := hq.unique hb
    exact ⟨hrs, hname, (hconflict hname).mpr hask⟩

theorem length_targetConflicts (rules : List Rule) :
    (targetConflicts rules).length = (Grouping.pairs (rules.flatMap (·.targets))).countP
      fun e => e.1.name = e.2.name && (e.1.conflict? e.2).isSome := by
  rw [← Grouping.sum_countP_groups]
  unfold targetConflicts
  rw [List.length_flatMap]
  simp only [List.length_filterMap_eq_countP, Option.isSome_map]

/-- The targets of the rules of one signature, in order. -/
theorem flatMap_targets_filter (rules : List Rule) (k : List Trait) :
    ((rules.zipIdx.filter fun p => p.1.signature = k).map (·.1)).flatMap (·.targets) =
      ((placed rules).filter fun a => a.rule.signature = k).map (·.target) := by
  unfold placed
  generalize rules.zipIdx = numbered
  induction numbered with
  | nil => rfl
  | cons a numbered ih =>
    have htargets : (a.1.targets.zipIdx.map fun b => b.1) = a.1.targets := List.zipIdx_map_fst _ _
    rw [List.flatMap_cons, List.filter_append, List.map_append, ← ih, List.filter_map,
      List.map_map]
    by_cases ha : a.1.signature = k
    · simp [ha, Function.comp_def, htargets]
    · simp [ha, Function.comp_def]

/-- Pairs of targets are compared in the group of their signature, and there in that of their
name. -/
theorem length_contradictions_eq_countP (rules : List Rule) :
    (contradictions rules).length = (Grouping.pairs (placed rules)).countP clashes := by
  unfold contradictions bySignature
  rw [List.length_flatMap, Grouping.groups_eq, List.map_map]
  simp only [Function.comp_def, length_targetConflicts, flatMap_targets_filter, Grouping.pairs_map,
    List.countP_map]
  refine Grouping.sum_countP_pairs_filter (Grouping.nodup_eraseDups _) (fun a ha => ?_) _
  have hr := List.mk_mem_zipIdx_iff_getElem?.mpr (mem_placed.mp ha).1
  exact Grouping.mem_eraseDups_map.mpr ⟨_, hr, rfl⟩

/-- There is one message for each two targets that clash, and no other one. -/
theorem length_contradictions (rules : List Rule) :
    ((contradictions rules).length : ℕ∞) =
      {z : Sym2 (ℕ × ℕ) | ∃ p q, p ≠ q ∧ Clash rules p q ∧ s(p, q) = z}.encard := by
  rw [length_contradictions_eq_countP]
  refine Grouping.coe_countP_pairs (nodup_places rules) Clash.symm Clash.ne ?_ ?_
  · exact fun a ha b hb => clashes_iff ha hb
  · rintro p q ⟨r, t, s, u, hp, -⟩
    exact ⟨⟨p, r, t⟩, mem_placed.mpr hp, rfl⟩

end Rule

end FieldRules
