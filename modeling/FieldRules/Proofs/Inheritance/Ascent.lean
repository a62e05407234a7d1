import FieldRules.Service.Selection
import Mathlib.Data.List.Chain
import Mathlib.Data.List.Nodup
import Mathlib.Data.List.Perm.Subperm
import Mathlib.Logic.Relation

/-! The way up from a set of rules, step by step. It takes no more steps than there are sets: it
ends at a set that extends none, or it comes back to a name that it has passed. -/
namespace FieldRules

open Relation (ReflTransGen TransGen)

namespace Template

variable {t : Template} {s p p' : RuleSet} {name : String} {ref : RuleSetRef}

/-- One set of rules extends another. The empty name is the name of none. -/
structure Extends (t : Template) (s p : RuleSet) : Prop where
  child_mem : s ∈ t.ruleSets
  parent_mem : p ∈ t.ruleSets
  parent_eq : s.parent = some p.name
  name_ne : p.name ≠ ""

/-- The set of one name extends the set of another. -/
def NameExtends (t : Template) (child parent : String) : Prop :=
  ∃ s p, t.Extends s p ∧ s.name = child ∧ p.name = parent

/-- A set of rules extends none: it gives no name, the empty one, or one that no set has. -/
def IsRoot (t : Template) (s : RuleSet) : Prop :=
  ∀ name, s.parent = some name → name = "" ∨ name ∉ t.ruleSetNames

theorem Extends.not_isRoot (h : t.Extends s p) : ¬ t.IsRoot s := by
  intro hroot
  rcases hroot p.name h.parent_eq with hname | hname
  · exact h.name_ne hname
  · exact hname (List.mem_map_of_mem h.parent_mem)

theorem mem_of_ruleSet? (h : t.ruleSet? name = some s) : s ∈ t.ruleSets ∧ s.name = name :=
  ⟨List.mem_of_find?_eq_some h, by simpa using List.find?_some h⟩

theorem ruleSet?_eq_none : t.ruleSet? name = none ↔ name ∉ t.ruleSetNames := by
  simp [ruleSet?, ruleSetNames]

theorem ruleSet?_name (hn : t.ruleSetNames.Nodup) (hs : s ∈ t.ruleSets) :
    t.ruleSet? s.name = some s := by
  cases hfind : t.ruleSet? s.name with
  | none => exact absurd (List.mem_map_of_mem hs) (ruleSet?_eq_none.mp hfind)
  | some s' =>
    obtain ⟨hs', hname⟩ := mem_of_ruleSet? hfind
    rw [List.inj_on_of_nodup_map hn hs' hs hname]

theorem Extends.of_parentOf? (hs : s ∈ t.ruleSets) (h : t.parentOf? s = some p) :
    t.Extends s p := by
  obtain ⟨name, hname, hp⟩ := Option.bind_eq_some_iff.mp h
  obtain ⟨hparent, hne⟩ := Option.filter_eq_some_iff.mp hname
  obtain ⟨hmem, rfl⟩ := mem_of_ruleSet? hp
  exact ⟨hs, hmem, hparent, by simpa using hne⟩

theorem Extends.parentOf?_eq (hn : t.ruleSetNames.Nodup) (h : t.Extends s p) :
    t.parentOf? s = some p := by
  have hname : s.parentName? = some p.name := by
    simp [RuleSet.parentName?, h.parent_eq, h.name_ne]
  rw [parentOf?, hname, Option.bind_some, ruleSet?_name hn h.parent_mem]

theorem Extends.unique (hn : t.ruleSetNames.Nodup) (h : t.Extends s p) (h' : t.Extends s p') :
    p = p' := by
  have heq := (h.parentOf?_eq hn).symm.trans (h'.parentOf?_eq hn)
  exact Option.some.inj heq

theorem parentOf?_eq_none : t.parentOf? s = none ↔ t.IsRoot s := by
  unfold parentOf? RuleSet.parentName? IsRoot
  cases s.parent with
  | none => simp
  | some name =>
    by_cases hname : name = ""
    · simp [hname]
    · simp [hname, ruleSet?_eq_none]

theorem mem_of_lookUp (h : t.lookUp ref = some s) : s ∈ t.ruleSets := by
  cases ref with
  | name name => exact (mem_of_ruleSet? h).1
  | index i =>
    simp only [lookUp, ruleSetAt?] at h
    split_ifs at h
    exact List.mem_of_getElem? h
  | flag b => exact List.mem_of_getElem? h

end Template

/-- How far a way up has come: the sets that it has passed, and the one that it is at. -/
structure Ascent where
  passed : List RuleSet
  current : RuleSet

namespace Ascent

variable {t : Template} {a b : Ascent}

/-- The start of a way up. -/
def start (s : RuleSet) : Ascent :=
  ⟨[], s⟩

/-- The sets on a way up, with the one that it is at. -/
def sets (a : Ascent) : List RuleSet :=
  a.passed ++ [a.current]

/-- The names that a way up has passed. -/
def names (a : Ascent) : List String :=
  a.passed.map (·.name)

/-- A way up has come back to a name that it has passed. -/
def Back (a : Ascent) : Prop :=
  a.current.name ∈ a.names

/-- A way up goes on from a set of a new name to the set that this one extends. -/
inductive Step (t : Template) (a : Ascent) : Ascent → Prop
  | up {p : RuleSet} (hfresh : ¬ a.Back) (hp : t.parentOf? a.current = some p) :
      Step t a ⟨a.sets, p⟩

/-- A way up has come to a set of a new name that extends none. -/
def Top (t : Template) (a : Ascent) : Prop :=
  ¬ a.Back ∧ t.IsRoot a.current

theorem names_sets (a : Ascent) : a.sets.map (·.name) = a.names ++ [a.current.name] := by
  simp [sets, names]

theorem prefix_sets (h : ReflTransGen (Step t) a b) : a.sets <+: b.sets := by
  induction h with
  | refl => exact List.prefix_refl _
  | tail _ hstep ih =>
    obtain ⟨-, -⟩ := hstep
    exact ih.trans (List.prefix_append _ _)

/-- What holds of a way up at every step. -/
structure Sound (t : Template) (a : Ascent) : Prop where
  mem : ∀ s ∈ a.sets, s ∈ t.ruleSets
  chain : a.sets.IsChain t.Extends
  nodup : a.names.Nodup

namespace Sound

theorem start {s : RuleSet} (hs : s ∈ t.ruleSets) : (Ascent.start s).Sound t where
  mem := by simpa [Ascent.start, sets] using hs
  chain := .singleton s
  nodup := List.nodup_nil

theorem current_mem (ha : a.Sound t) : a.current ∈ t.ruleSets :=
  ha.mem a.current (by simp [sets])

theorem extends_current (ha : a.Sound t) (h : Step t a b) : t.Extends a.current b.current := by
  obtain ⟨-, hp⟩ := h
  exact .of_parentOf? ha.current_mem hp

theorem nodup_sets (ha : a.Sound t) (hfresh : ¬ a.Back) : (a.sets.map (·.name)).Nodup := by
  rw [names_sets]
  exact ha.nodup.append (List.nodup_singleton _) (List.disjoint_singleton.mpr hfresh)

theorem step (ha : a.Sound t) (h : Step t a b) : b.Sound t := by
  have hext := ha.extends_current h
  obtain ⟨hfresh, hp⟩ := h
  refine ⟨?_, ?_, ha.nodup_sets hfresh⟩
  · intro s hs
    rcases List.mem_append.mp hs with hs | hs
    · exact ha.mem s hs
    · rw [List.mem_singleton.mp hs]
      exact hext.parent_mem
  · refine ha.chain.append (.singleton _) ?_
    simpa [sets] using hext

theorem run (ha : a.Sound t) (h : ReflTransGen (Step t) a b) : b.Sound t := by
  induction h with
  | refl => exact ha
  | tail _ hstep ih => exact ih.step hstep

/-- There are no more sets to pass than the template has. -/
theorem length_passed_le (ha : a.Sound t) : a.passed.length ≤ t.ruleSets.length := by
  have hsub : a.names ⊆ t.ruleSetNames :=
    List.map_subset _ fun s hs => ha.mem s (List.mem_append_left _ hs)
  have hle := (ha.nodup.subperm hsub).length_le
  rwa [names, Template.ruleSetNames, List.length_map, List.length_map] at hle

theorem length_passed_lt (ha : a.Sound t) (hfresh : ¬ a.Back) :
    a.passed.length < t.ruleSets.length := by
  have hsub : a.sets.map (·.name) ⊆ t.ruleSetNames := List.map_subset _ ha.mem
  have hle := ((ha.nodup_sets hfresh).subperm hsub).length_le
  rwa [Template.ruleSetNames, List.length_map, List.length_map, sets, List.length_append,
    List.length_singleton] at hle

/-- Every way up ends. -/
theorem exists_end (ha : a.Sound t) :
    ∃ b, ReflTransGen (Step t) a b ∧ (b.Back ∨ b.Top t) := by
  induction h : t.ruleSets.length - a.passed.length generalizing a with
  | zero =>
    refine ⟨a, .refl, Or.inl ?_⟩
    by_contra hfresh
    have := ha.length_passed_lt hfresh
    omega
  | succ n ih =>
    by_cases hback : a.Back
    · exact ⟨a, .refl, Or.inl hback⟩
    · cases hp : t.parentOf? a.current with
      | none => exact ⟨a, .refl, Or.inr ⟨hback, Template.parentOf?_eq_none.mp hp⟩⟩
      | some p =>
        have hstep : Step t a ⟨a.sets, p⟩ := .up hback hp
        have hlen : t.ruleSets.length - a.sets.length = n := by
          rw [sets, List.length_append, List.length_singleton]
          omega
        obtain ⟨b, hb, hend⟩ := ih (ha.step hstep) hlen
        exact ⟨b, .head hstep hb, hend⟩

theorem reaches (ha : a.Sound t) (h : ReflTransGen (Step t) a b) :
    ReflTransGen t.Extends a.current b.current := by
  induction h with
  | refl => exact .refl
  | tail hrun hstep ih => exact ih.tail ((ha.run hrun).extends_current hstep)

theorem chain_names (ha : a.Sound t) : (a.sets.map (·.name)).IsChain t.NameExtends :=
  (List.isChain_map _).mpr (ha.chain.imp fun s p h => ⟨s, p, h, rfl, rfl⟩)

/-- A way up that has come back has come to its last name twice, and to every other one once. -/
theorem count_names (ha : a.Sound t) (hback : a.Back) {name : String}
    (hname : name ∈ a.sets.map (·.name)) :
    (a.sets.map (·.name)).count name =
      if (a.sets.map (·.name)).getLast? = some name then 2 else 1 := by
  rw [names_sets] at hname ⊢
  have hmem : name ∈ a.names := by
    rcases List.mem_append.mp hname with hname | hname
    · exact hname
    · rw [List.mem_singleton.mp hname]
      exact hback
  rw [List.count_append, List.count_eq_one_of_mem ha.nodup hmem, List.getLast?_concat]
  by_cases hlast : a.current.name = name
  · simp [hlast]
  · simp [hlast]

/-- A way up that has come back goes round. -/
theorem loop (hn : t.ruleSetNames.Nodup) (ha : a.Sound t) (hback : a.Back) :
    TransGen t.Extends a.current a.current := by
  obtain ⟨s, hs, hname⟩ := List.mem_map.mp hback
  have hsame : s = a.current :=
    List.inj_on_of_nodup_map hn (ha.mem s (List.mem_append_left _ hs)) ha.current_mem hname
  subst hsame
  obtain ⟨before, after, hpassed⟩ := List.append_of_mem hs
  have hround : (a.current :: (after ++ [a.current])).IsChain t.Extends := by
    have hchain := ha.chain
    rw [sets, hpassed, List.append_assoc] at hchain
    exact hchain.right_of_append
  cases after with
  | nil => exact .single (List.isChain_cons_cons.mp hround).1
  | cons p after =>
    obtain ⟨hp, hrest⟩ := List.isChain_cons_cons.mp hround
    exact .head' hp (List.relationReflTransGen_of_exists_isChain_cons _ hrest (by simp))

end Sound

/-- What takes one from its bound at each step takes as much as there are steps. -/
theorem run_eq {α : Type} {P : Ascent → Prop} {f : ℕ → Ascent → α}
    (hP : ∀ a b, P a → Step t a b → P b)
    (hf : ∀ a b, P a → Step t a b → ∀ room, f (room + 1) a = f room b) (ha : P a)
    (h : ReflTransGen (Step t) a b) :
    ∃ k, b.passed.length = a.passed.length + k ∧ ∀ room, f (room + k) a = f room b := by
  induction h using ReflTransGen.head_induction_on with
  | refl => exact ⟨0, rfl, fun room => rfl⟩
  | head hstep _ ih =>
    obtain ⟨k, hk, hrun⟩ := ih (hP _ _ ha hstep)
    refine ⟨k + 1, ?_, fun room => ?_⟩
    · obtain ⟨-, -⟩ := hstep
      rw [hk, sets, List.length_append, List.length_singleton]
      omega
    · rw [← Nat.add_assoc, hf _ _ ha hstep, hrun]

end Ascent

end FieldRules
