import FieldRules.Proofs.Rule.Contradiction
import FieldRules.Proofs.Rule.Signature
import FieldRules.Proofs.Text.Split
import FieldRules.Proofs.Value.Positions
import FieldRules.Rule.Check

/-! Suggestions to merge rules: when they are made, and which rules they name. The positions can be
read back from the text of a suggestion, and they are those of all rules of one signature. -/
namespace FieldRules.Rule

variable {rules : List Rule} {positions others : List ℕ} {m : String} {i j : ℕ} {r s : Rule}

theorem split_numbers (hne : positions ≠ []) :
    Text.split ", " (numbers positions) = positions.map fun i => toString (i + 1) := by
  have hsep : ", " = String.ofList (',' :: ' ' :: []) := rfl
  unfold numbers
  rw [hsep]
  refine Text.split_join (by decide) (by simpa using hne) fun p hp hblank => ?_
  obtain ⟨i, -, rfl⟩ := List.mem_map.mp hp
  have hdigit : Text.isDigit ' ' = true := Numeral.isDigit_of_mem_toString hblank
  exact absurd hdigit (by decide)

theorem numbers_ne_empty (hne : positions ≠ []) : numbers positions ≠ "" := by
  intro h
  have hsplit := split_numbers hne
  rw [h] at hsplit
  have hempty : "" ∈ positions.map fun i => toString (i + 1) := hsplit ▸ List.mem_singleton_self ""
  obtain ⟨i, -, hi⟩ := List.mem_map.mp hempty
  exact Numeral.toString_ne_empty (i + 1) hi

theorem numbers_injective : Function.Injective numbers := by
  intro is js h
  by_cases his : is = []
  · subst his
    by_contra hjs
    exact numbers_ne_empty (Ne.symm hjs) h.symm
  · have hjs : js ≠ [] := by
      rintro rfl
      exact numbers_ne_empty his h
    have hsplit := congrArg (Text.split ", ") h
    rw [split_numbers his, split_numbers hjs] at hsplit
    refine List.map_injective_iff.mpr (fun i j hij => ?_) hsplit
    exact Nat.succ_injective (Numeral.toString_injective hij)

theorem of_mem_numbers {c : Char} (hc : c ∈ (numbers positions).toList) :
    c ∈ ", ".toList ∨ Text.isDigit c = true := by
  refine (Text.mem_toList_join hc).imp_right ?_
  rintro ⟨p, hp, hc⟩
  obtain ⟨i, -, rfl⟩ := List.mem_map.mp hp
  exact Numeral.isDigit_of_mem_toString hc

/-- A suggestion names the rules at some positions, in one of its two forms. -/
def Names (m : String) (positions : List ℕ) : Prop :=
  m = "Rules " ++ numbers positions ++ " can be merged as they have no conditions." ∨
    m = "Rules " ++ numbers positions ++ " can be merged as they have identical conditions."

/-- Both forms go on after the numbers with the same letter, and no number has it. -/
theorem Names.takeWhile_eq (h : Names m positions) :
    m.toList.takeWhile (· ≠ 'c') = ("Rules " ++ numbers positions ++ " ").toList := by
  have hfront : ∀ c ∈ ("Rules " ++ numbers positions ++ " ").toList, decide (c ≠ 'c') = true := by
    intro c hc
    rw [decide_eq_true_eq]
    rintro rfl
    simp only [String.toList_append, List.mem_append] at hc
    rcases hc with (hc | hc) | hc
    · exact absurd hc (by decide)
    · exact absurd (of_mem_numbers hc) (by decide)
    · exact absurd hc (by decide)
  have hall : ∀ rest : List Char, List.takeWhile (· ≠ 'c')
      (("Rules " ++ numbers positions ++ " ").toList ++ 'c' :: rest) =
        ("Rules " ++ numbers positions ++ " ").toList := by
    intro rest
    rw [List.takeWhile_append_of_pos hfront, List.takeWhile_cons_of_neg (by simp), List.append_nil]
  rcases h with rfl | rfl
  · have hend : " can be merged as they have no conditions." =
        " " ++ "can be merged as they have no conditions." := rfl
    rw [hend, ← String.append_assoc, String.toList_append]
    exact hall _
  · have hend : " can be merged as they have identical conditions." =
        " " ++ "can be merged as they have identical conditions." := rfl
    rw [hend, ← String.append_assoc, String.toList_append]
    exact hall _

theorem Names.unique (h : Names m positions) (h' : Names m others) : positions = others := by
  have heq := String.toList_inj.mp (h.takeWhile_eq.symm.trans h'.takeWhile_eq)
  rw [String.append_left_inj, String.append_right_inj] at heq
  exact numbers_injective heq

/-- The positions of the rules of one signature. -/
def positionsOf (rules : List Rule) (k : List Trait) : List ℕ :=
  (rules.zipIdx.filter fun p => p.1.signature = k).map (·.2)

theorem mem_positionsOf {k : List Trait} : i ∈ positionsOf rules k ↔
    ∃ r, rules[i]? = some r ∧ r.signature = k := by
  simp [positionsOf, List.mk_mem_zipIdx_iff_getElem?]

theorem targetConflicts_group_eq_nil_iff {k : List Trait} :
    targetConflicts ((rules.zipIdx.filter fun p => p.1.signature = k).map (·.1)) = [] ↔
      ∀ r ∈ rules, r.signature = k → ∀ s ∈ rules, s.signature = k →
        ∀ t ∈ r.targets, ∀ u ∈ s.targets, t.name = u.name → t.conflict? u = none := by
  simp only [targetConflicts_eq_nil_iff, List.mem_flatMap, mem_group]
  constructor
  · intro h r hr hk s hs hk' t ht u hu
    exact h t ⟨r, ⟨hr, hk⟩, ht⟩ u ⟨s, ⟨hs, hk'⟩, hu⟩
  · rintro h t ⟨r, ⟨hr, hk⟩, ht⟩ u ⟨s, ⟨hs, hk'⟩, hu⟩
    exact h r hr hk s hs hk' t ht u hu

theorem mem_mergeUnconditional : m ∈ mergeUnconditional rules ↔
    1 < (positionsOf rules []).length ∧ m = "Rules " ++ numbers (positionsOf rules []) ++
      " can be merged as they have no conditions." := by
  have hfree : (rules.zipIdx.filter fun p => p.1.isUnconditional).map (·.2) =
      positionsOf rules [] := by
    refine congrArg _ (List.filter_congr fun p _ => ?_)
    rw [Bool.eq_iff_iff, decide_eq_true_eq, signature_eq_nil_iff]
  simp only [mergeUnconditional, hfree]
  split_ifs with hlength
  · rw [List.mem_singleton, and_iff_right hlength]
  · simp [hlength]

/-- Where two or more rules have the same conditions, some at all, and no targets in conflict, it is
suggested to merge them; and nothing else is suggested but for the rules without conditions. -/
theorem mem_mergeSuggestions : m ∈ mergeSuggestions rules ↔ m ∈ mergeUnconditional rules ∨
    ∃ k, k ≠ [] ∧ 1 < (positionsOf rules k).length ∧
      (∀ r ∈ rules, r.signature = k → ∀ s ∈ rules, s.signature = k →
        ∀ t ∈ r.targets, ∀ u ∈ s.targets, t.name = u.name → t.conflict? u = none) ∧
      m = "Rules " ++ numbers (positionsOf rules k) ++
        " can be merged as they have identical conditions." := by
  rw [mergeSuggestions, List.mem_append, List.mem_filterMap]
  refine or_congr Iff.rfl ?_
  simp only [← targetConflicts_group_eq_nil_iff, positionsOf, List.length_map]
  constructor
  · rintro ⟨⟨k, group⟩, hgroup, hsome⟩
    obtain ⟨-, rfl⟩ := Grouping.mem_groups.mp hgroup
    dsimp only at hsome
    split_ifs at hsome with hfew hnil
    simp only [Bool.or_eq_true, decide_eq_true_eq, List.isEmpty_iff, not_or, not_lt] at hfew
    exact ⟨k, hfew.1, hfew.2, List.isEmpty_iff.mp hnil, (Option.some.inj hsome).symm⟩
  · rintro ⟨k, hk, hlength, hnil, rfl⟩
    obtain ⟨p, hp⟩ := List.exists_mem_of_length_pos (Nat.zero_lt_of_lt hlength)
    obtain ⟨hp, hpk⟩ := List.mem_filter.mp hp
    refine ⟨(k, _), Grouping.mem_groups.mpr ⟨⟨p, hp, of_decide_eq_true hpk⟩, rfl⟩, ?_⟩
    have hmany : ¬ (rules.zipIdx.filter fun p => p.1.signature = k).length < 2 := by omega
    dsimp only
    rw [hnil, if_neg (by simp [hk, hmany]), if_pos List.isEmpty_nil]

/-- A suggestion names all rules of one signature. -/
theorem exists_names_positionsOf (h : m ∈ mergeSuggestions rules) :
    ∃ k, Names m (positionsOf rules k) := by
  rcases mem_mergeSuggestions.mp h with h | ⟨k, -, -, -, hm⟩
  · exact ⟨[], .inl (mem_mergeUnconditional.mp h).2⟩
  · exact ⟨k, .inr hm⟩

/-- Rules that a suggestion names have the same conditions. -/
theorem Names.sameConditions (hm : m ∈ mergeSuggestions rules) (h : Names m positions)
    (hi : i ∈ positions) (hj : j ∈ positions) (hr : rules[i]? = some r)
    (hs : rules[j]? = some s) : r.SameConditions s := by
  obtain ⟨k, hnames⟩ := exists_names_positionsOf hm
  rw [h.unique hnames] at hi hj
  obtain ⟨r', hr', hsignature⟩ := mem_positionsOf.mp hi
  obtain ⟨s', hs', hsignature'⟩ := mem_positionsOf.mp hj
  cases hr.symm.trans hr'
  cases hs.symm.trans hs'
  exact signature_eq_iff.mp (hsignature.trans hsignature'.symm)

end FieldRules.Rule
