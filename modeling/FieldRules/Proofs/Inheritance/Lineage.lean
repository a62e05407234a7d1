import FieldRules.Proofs.Inheritance.Resolution

/-! The names of the ancestors of a set. They are listed along the same way up on which the rules of
the set are resolved, and to the same end. -/
namespace FieldRules.Template

open Relation (ReflTransGen)

variable {t : Template} {s : RuleSet} {ref : RuleSetRef}

/-- Names from the last to the first, of which the last one is marked. -/
def marked (names : List String) : List String :=
  match names.reverse with
  | [] => []
  | name :: below => (name ++ circularMark) :: below

@[simp] theorem marked_concat (names : List String) (name : String) :
    marked (names ++ [name]) = (name ++ circularMark) :: names.reverse := by
  simp [marked]

/-- The two walks take the same steps, whether there is room for all of them or not. What one has
passed, the other has put behind the names above. -/
theorem lineageAbove_append (room : ℕ) (passed : List RuleSet) (s : RuleSet) :
    t.lineageAbove room (passed.map (·.name)).reverse s ++ (passed.map (·.name)).reverse =
      match t.ancestry room passed s with
      | .ok sets => (sets.map (·.name)).reverse
      | .error c => marked c.chain := by
  induction room generalizing passed s with
  | zero => simp [lineageAbove, ancestry]
  | succ room ih =>
    rw [lineageAbove, ancestry]
    by_cases hback : s.name ∈ passed.map (·.name)
    · rw [if_pos hback, if_pos (List.mem_reverse.mpr hback)]
      simp
    · rw [if_neg hback, if_neg (mt List.mem_reverse.mp hback)]
      cases t.parentOf? s with
      | none => simp
      | some p =>
        have hnames : s.name :: (passed.map (·.name)).reverse =
            ((passed ++ [s]).map (·.name)).reverse := by simp
        dsimp only
        rw [List.append_assoc, List.singleton_append, hnames]
        exact ih (passed ++ [s]) p

theorem lineage_eq (hs : t.lookUp ref = some s) :
    t.lineage ref = match t.ancestry t.ruleSets.length [] s with
      | .ok sets => (sets.map (·.name)).reverse
      | .error c => marked c.chain := by
  rw [← lineageAbove_append, lineage, hs]
  simp

/-- A way up that comes back has its names listed from the last, which is marked, to the first; one
that ends has them listed from the root, and the rules are put one after another in this order. A
set that is not there has neither names nor rules. -/
theorem lineage_along_resolve (t : Template) (ref : RuleSetRef) :
    t.lookUp ref = none ∧ t.resolve ref = .ok [] ∧ t.lineage ref = [] ∨
    ∃ s a, t.lookUp ref = some s ∧ ReflTransGen (Ascent.Step t) (.start s) a ∧
      (a.Back ∧ t.resolve ref = .error ⟨a.names ++ [a.current.name]⟩ ∧
          t.lineage ref = (a.current.name ++ circularMark) :: a.names.reverse ∨
        a.Top t ∧ t.resolve ref = .ok (a.sets.reverse.flatMap (·.rules)) ∧
          t.lineage ref = a.sets.reverse.map (·.name)) := by
  cases hs : t.lookUp ref with
  | none => exact .inl ⟨rfl, by rw [resolve, hs], by rw [lineage, hs]⟩
  | some s =>
    obtain ⟨a, hrun, hend⟩ := exists_ancestry (mem_of_lookUp hs)
    refine .inr ⟨s, a, rfl, hrun, ?_⟩
    rw [resolve_eq hs, lineage_eq hs]
    rcases hend with ⟨hback, h⟩ | ⟨htop, h⟩
    · rw [h, Ascent.names_sets]
      exact .inl ⟨hback, rfl, marked_concat _ _⟩
    · rw [h]
      exact .inr ⟨htop, rfl, List.map_reverse.symm⟩

end FieldRules.Template
