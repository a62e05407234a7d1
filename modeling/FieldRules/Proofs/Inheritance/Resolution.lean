import FieldRules.Proofs.Inheritance.Ascent

/-! Resolving a set of rules: it fails exactly when the way up has no end, and then names a way that
comes back; otherwise the rules of the set follow those that the set above it resolves to. -/
namespace FieldRules

open Relation (ReflTransGen TransGen)

namespace Template

variable {t : Template} {s p : RuleSet} {ref : RuleSetRef}

/-- The way up from a set never comes to one that extends none. -/
def Endless (t : Template) (s : RuleSet) : Prop :=
  ∀ a, ReflTransGen t.Extends s a → ¬ t.IsRoot a

theorem Endless.above (h : t.Endless s) (hs : t.Extends s p) : t.Endless p :=
  fun a ha => h a (.head hs ha)

/-- Round a loop there is no end. -/
theorem endless_of_loop (hn : t.ruleSetNames.Nodup) (h : TransGen t.Extends s s) :
    t.Endless s := by
  intro a ha
  have hloop : TransGen t.Extends a a := by
    induction ha with
    | refl => exact h
    | @tail a b _ hab ih =>
      obtain ⟨b', hab', hb'⟩ := TransGen.head'_iff.mp ih
      rw [hab'.unique hn hab] at hb'
      exact .tail' hb' hab
  obtain ⟨b, hab, -⟩ := TransGen.head'_iff.mp hloop
  exact hab.not_isRoot

/-- Nor is there before a set without an end, since each set extends only one. -/
theorem Endless.below (hn : t.ruleSetNames.Nodup) (h : t.Endless p)
    (hs : ReflTransGen t.Extends s p) : t.Endless s := by
  intro a ha
  have hunique : Relator.RightUnique t.Extends := fun _ _ _ hab hac => hab.unique hn hac
  rcases ReflTransGen.total_of_right_unique hunique hs ha with hpa | hap
  · exact h a hpa
  · rcases ReflTransGen.cases_head hap with rfl | ⟨b, hab, -⟩
    · exact h a .refl
    · exact hab.not_isRoot

theorem ancestry_back {a : Ascent} (h : a.Back) (room : ℕ) :
    t.ancestry room a.passed a.current = .error ⟨a.sets.map (·.name)⟩ := by
  rw [Ascent.names_sets]
  cases room with
  | zero => rfl
  | succ room => exact if_pos h

theorem ancestry_top {a : Ascent} (h : a.Top t) (room : ℕ) :
    t.ancestry (room + 1) a.passed a.current = .ok a.sets := by
  obtain ⟨hfresh, hroot⟩ := h
  refine (if_neg hfresh).trans ?_
  rw [parentOf?_eq_none.mpr hroot]
  rfl

theorem ancestry_step {a b : Ascent} (h : Ascent.Step t a b) (room : ℕ) :
    t.ancestry (room + 1) a.passed a.current = t.ancestry room b.passed b.current := by
  obtain ⟨hfresh, hp⟩ := h
  refine (if_neg hfresh).trans ?_
  rw [hp]
  rfl

/-- The way up is followed to its end. -/
theorem exists_ancestry (hs : s ∈ t.ruleSets) :
    ∃ a, ReflTransGen (Ascent.Step t) (.start s) a ∧
      (a.Back ∧ t.ancestry t.ruleSets.length [] s = .error ⟨a.sets.map (·.name)⟩ ∨
        a.Top t ∧ t.ancestry t.ruleSets.length [] s = .ok a.sets) := by
  have hsound := Ascent.Sound.start hs
  obtain ⟨a, hrun, hend⟩ := hsound.exists_end
  have ha := hsound.run hrun
  obtain ⟨k, hk, hroom⟩ := Ascent.run_eq (P := fun _ => True)
    (f := fun room b => t.ancestry room b.passed b.current) (fun _ _ _ _ => trivial)
    (fun _ _ _ h room => ancestry_step h room) trivial hrun
  simp only [Ascent.start, List.length_nil, Nat.zero_add] at hk hroom
  refine ⟨a, hrun, ?_⟩
  rcases hend with hback | htop
  · have hle := ha.length_passed_le
    obtain ⟨room, hlen⟩ : ∃ room, t.ruleSets.length = room + k :=
      ⟨t.ruleSets.length - k, by omega⟩
    refine Or.inl ⟨hback, ?_⟩
    rw [hlen, hroom, ancestry_back hback]
  · have hlt := ha.length_passed_lt htop.1
    obtain ⟨room, hlen⟩ : ∃ room, t.ruleSets.length = room + 1 + k :=
      ⟨t.ruleSets.length - k - 1, by omega⟩
    refine Or.inr ⟨htop, ?_⟩
    rw [hlen, hroom, ancestry_top htop]

theorem ancestry_of_cons {room : ℕ} {x : RuleSet} {passed sets : List RuleSet}
    (h : t.ancestry room (x :: passed) s = .ok sets) :
    ∃ above, sets = x :: above ∧ t.ancestry (room + 1) passed s = .ok above := by
  induction room generalizing passed s with
  | zero => cases h
  | succ room ih =>
    rw [ancestry] at h
    split_ifs at h with hback
    have hfresh : s.name ∉ passed.map (·.name) := fun hmem => hback (List.mem_cons_of_mem _ hmem)
    rw [ancestry, if_neg hfresh]
    cases hp : t.parentOf? s with
    | none =>
      rw [hp] at h
      cases h
      exact ⟨passed ++ [s], rfl, rfl⟩
    | some p =>
      rw [hp] at h
      exact ih h

theorem resolve_eq (hs : t.lookUp ref = some s) : t.resolve ref =
    (t.ancestry t.ruleSets.length [] s).map fun sets => sets.reverse.flatMap (·.rules) := by
  rw [resolve, hs]

/-- The way up is followed to its end, and the end says what the set resolves to. -/
theorem exists_resolve (hs : t.lookUp ref = some s) :
    ∃ a, ReflTransGen (Ascent.Step t) (.start s) a ∧
      (a.Back ∧ t.resolve ref = .error ⟨a.sets.map (·.name)⟩ ∨
        a.Top t ∧ t.resolve ref = .ok (a.sets.reverse.flatMap (·.rules))) := by
  obtain ⟨a, hrun, hend⟩ := exists_ancestry (mem_of_lookUp hs)
  refine ⟨a, hrun, ?_⟩
  rw [resolve_eq hs]
  rcases hend with ⟨hback, h⟩ | ⟨htop, h⟩
  · exact Or.inl ⟨hback, by rw [h]; rfl⟩
  · exact Or.inr ⟨htop, by rw [h]; rfl⟩

theorem resolve_eq_error_iff (hn : t.ruleSetNames.Nodup) (hs : t.lookUp ref = some s) :
    (∃ c, t.resolve ref = .error c) ↔ t.Endless s := by
  have hsound := Ascent.Sound.start (mem_of_lookUp hs)
  obtain ⟨a, hrun, hend⟩ := exists_resolve hs
  rcases hend with ⟨hback, h⟩ | ⟨⟨-, hroot⟩, h⟩
  · have hloop := (hsound.run hrun).loop hn hback
    have hendless : t.Endless s := (endless_of_loop hn hloop).below hn (hsound.reaches hrun)
    simp [h, hendless]
  · have hend : ¬ t.Endless s := fun hendless => hendless _ (hsound.reaches hrun) hroot
    simp [h, hend]

theorem exists_length_eq (hs : s ∈ t.ruleSets) : ∃ room, t.ruleSets.length = room + 1 :=
  Nat.exists_eq_succ_of_ne_zero (List.length_pos_of_mem hs).ne'

theorem resolve_of_isRoot (hs : t.lookUp ref = some s) (hroot : t.IsRoot s) :
    t.resolve ref = .ok s.rules := by
  obtain ⟨room, hlen⟩ := exists_length_eq (mem_of_lookUp hs)
  have htop : (Ascent.start s).Top t := ⟨List.not_mem_nil, hroot⟩
  have hsets : t.ancestry (room + 1) [] s = .ok [s] := ancestry_top htop room
  rw [resolve_eq hs, hlen, hsets]
  simp [Except.map]

/-- The rules of a set follow those that the set above it resolves to. -/
theorem resolve_of_extends (hn : t.ruleSetNames.Nodup) (hs : t.lookUp ref = some s)
    (hp : t.Extends s p) {ref' : RuleSetRef} (hp' : t.lookUp ref' = some p) {rules : List Rule}
    (h : t.resolve ref = .ok rules) :
    ∃ inherited, t.resolve ref' = .ok inherited ∧ rules = inherited ++ s.rules := by
  rw [resolve_eq hs] at h
  rw [resolve_eq hp']
  obtain ⟨room, hlen⟩ := exists_length_eq hp.child_mem
  cases hsets : t.ancestry t.ruleSets.length [] s with
  | error c =>
    rw [hsets] at h
    cases h
  | ok sets =>
    rw [hsets] at h
    cases h
    rw [hlen] at hsets ⊢
    -- the way up from the set goes on with the way up from the set above it
    have hstep : Ascent.Step t (.start s) ⟨[s], p⟩ := .up List.not_mem_nil (hp.parentOf?_eq hn)
    obtain ⟨above, rfl, habove⟩ := ancestry_of_cons ((ancestry_step hstep room).symm.trans hsets)
    rw [habove]
    exact ⟨_, rfl, by simp⟩

theorem exists_inherited (hn : t.ruleSetNames.Nodup) (hs : t.lookUp ref = some s)
    (hend : ¬ t.Endless s) : ∃ inherited, t.resolve ref = .ok (inherited ++ s.rules) ∧
      (t.IsRoot s → inherited = []) ∧
      ∀ p ref', t.Extends s p → t.lookUp ref' = some p → t.resolve ref' = .ok inherited := by
  cases hp : t.parentOf? s with
  | none =>
    have hroot := parentOf?_eq_none.mp hp
    exact ⟨[], resolve_of_isRoot hs hroot, fun _ => rfl, fun p _ h _ => absurd hroot h.not_isRoot⟩
  | some p =>
    have hext := Extends.of_parentOf? (mem_of_lookUp hs) hp
    have hname : t.lookUp (.name p.name) = some p := ruleSet?_name hn hext.parent_mem
    cases h : t.resolve ref with
    | error c => exact absurd ((resolve_eq_error_iff hn hs).mp ⟨c, h⟩) hend
    | ok rules =>
      obtain ⟨inherited, hinherited, rfl⟩ := resolve_of_extends hn hs hext hname h
      refine ⟨inherited, rfl, fun hroot => absurd hroot hext.not_isRoot, ?_⟩
      intro p' ref' hext' hp'
      rw [← hext.unique hn hext'] at hp'
      rw [resolve_eq hp', ← resolve_eq hname, hinherited]

/-- A set of which the way up has an end resolves to its own rules after those of the set above it,
if there is one. Otherwise nothing is resolved, and the names on the way up are given as far as the
first one that comes again. -/
theorem resolve_along_parents (hn : t.ruleSetNames.Nodup) (hs : t.lookUp ref = some s) :
    (∃ a, ReflTransGen (Ascent.Step t) (.start s) a ∧
      (a.Back ∧ t.resolve ref = .error ⟨a.sets.map (·.name)⟩ ∨
        a.Top t ∧ t.resolve ref = .ok (a.sets.reverse.flatMap (·.rules)))) ∧
    ((∃ c, t.resolve ref = .error c) ↔ t.Endless s) ∧
    (¬ t.Endless s → ∃ inherited, t.resolve ref = .ok (inherited ++ s.rules) ∧
      (t.IsRoot s → inherited = []) ∧
      ∀ p ref', t.Extends s p → t.lookUp ref' = some p → t.resolve ref' = .ok inherited) ∧
    ∀ c, t.resolve ref = .error c →
      c.chain.head? = some s.name ∧ c.chain.IsChain t.NameExtends ∧
      ∀ name ∈ c.chain, c.chain.count name = if c.chain.getLast? = some name then 2 else 1 := by
  refine ⟨exists_resolve hs, resolve_eq_error_iff hn hs, exists_inherited hn hs, ?_⟩
  intro c hc
  obtain ⟨a, hrun, ⟨hback, h⟩ | ⟨-, h⟩⟩ := exists_resolve hs
  · rw [h] at hc
    cases hc
    have ha := (Ascent.Sound.start (mem_of_lookUp hs)).run hrun
    refine ⟨?_, ha.chain_names, fun name => ha.count_names hback⟩
    obtain ⟨rest, hsets⟩ := Ascent.prefix_sets hrun
    rw [← hsets]
    rfl
  · rw [h] at hc
    cases hc

/-- A set with a rule of its own, below one whose parent is not there. -/
def branch : RuleSet where
  name := "branch"
  rules := [{ targets := [⟨"bud", .set none, true⟩] }]
  parent := some "stump"

/-- A set whose parent is not there. -/
def stump : RuleSet where
  name := "stump"
  rules := [{ targets := [⟨"bark", .set none, true⟩] }]
  parent := some "gone"

/-- A set that leads into a loop of two others. -/
def leaf : RuleSet where
  name := "leaf"
  parent := some "left"

/-- Two sets in a loop, one that leads into it, and a way up that ends. -/
def thicket : Template where
  ruleSets := [leaf, { name := "left", parent := some "right" },
    { name := "right", parent := some "left" }, branch, stump]

theorem thicket_resolve :
    (∃ c, thicket.resolve (.index 0) = .error c ∧ thicket.Endless leaf ∧
      c.chain.head? = some "leaf" ∧ c.chain.IsChain thicket.NameExtends ∧
      c.chain.count "left" = 2) ∧
    ∃ inherited, thicket.resolve (.name "branch") = .ok (inherited ++ branch.rules) ∧
      thicket.resolve (.name "stump") = .ok inherited ∧ inherited = stump.rules := by
  have hn : thicket.ruleSetNames.Nodup := by decide
  constructor
  · have hs : thicket.lookUp (.index 0) = some leaf := rfl
    have h : thicket.resolve (.index 0) = .error ⟨["leaf", "left", "right", "left"]⟩ := rfl
    obtain ⟨-, hfails, -, hchain⟩ := resolve_along_parents hn hs
    obtain ⟨hhead, hextends, hcount⟩ := hchain _ h
    exact ⟨_, h, hfails.mp ⟨_, h⟩, hhead, hextends, hcount "left" (by decide)⟩
  · have hs : thicket.lookUp (.name "branch") = some branch := rfl
    have h : thicket.resolve (.name "branch") = .ok (stump.rules ++ branch.rules) := rfl
    obtain ⟨-, hfails, hinherits, -⟩ := resolve_along_parents hn hs
    have hend : ¬ thicket.Endless branch := by
      intro hendless
      obtain ⟨c, hc⟩ := hfails.mpr hendless
      rw [h] at hc
      cases hc
    have hext : thicket.Extends branch stump := ⟨by decide, by decide, rfl, by decide⟩
    obtain ⟨inherited, hinherited, -, hstump⟩ := hinherits hend
    refine ⟨inherited, hinherited, hstump stump _ hext rfl, ?_⟩
    rw [h] at hinherited
    exact (List.append_cancel_right (Except.ok.inj hinherited)).symm

end Template

end FieldRules
