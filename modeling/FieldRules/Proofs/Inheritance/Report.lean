import FieldRules.Proofs.Inheritance.Resolution
import FieldRules.Proofs.Text.Split

/-! The report on how sets of rules extend each other: it is empty exactly when every set has its
parent, if it names one, and can be resolved; and every loop in it is one. -/
namespace FieldRules

open Relation (ReflTransGen TransGen)

namespace Template

variable {t : Template} {s p : RuleSet} {a b : Ascent}

/-- A name that no set has leads nowhere. -/
theorem loopFrom?_of_not_mem {name : String} (hname : name = "" ∨ name ∉ t.ruleSetNames)
    {path : List String} (hpath : path ⊆ t.ruleSetNames) (room : ℕ) :
    t.loopFrom? room path name = none := by
  cases room with
  | zero => rfl
  | succ room =>
    rw [loopFrom?]
    by_cases hempty : name = ""
    · rw [if_pos hempty]
    · have hmissing := hname.resolve_left hempty
      rw [if_neg hempty, if_neg fun hmem => hmissing (hpath hmem), ruleSet?_eq_none.mpr hmissing]
      rfl

theorem loopFrom?_back (hne : a.current.name ≠ "") (hback : a.Back) (room : ℕ) :
    t.loopFrom? (room + 1) a.names a.current.name =
      some (a.names.dropWhile (· != a.current.name) ++ [a.current.name]) := by
  rw [loopFrom?, if_neg hne]
  exact if_pos hback

theorem loopFrom?_eq (hn : t.ruleSetNames.Nodup) (ha : a.Sound t) (hne : a.current.name ≠ "")
    (hfresh : ¬ a.Back) (room : ℕ) : t.loopFrom? (room + 1) a.names a.current.name =
      match a.current.parent with
      | none => none
      | some parent => t.loopFrom? room (a.sets.map (·.name)) parent := by
  rw [loopFrom?, if_neg hne, ruleSet?_name hn ha.current_mem, Ascent.names_sets]
  exact if_neg hfresh

theorem loopFrom?_top (hn : t.ruleSetNames.Nodup) (ha : a.Sound t) (hne : a.current.name ≠ "")
    (htop : a.Top t) (room : ℕ) : t.loopFrom? room a.names a.current.name = none := by
  obtain ⟨hfresh, hroot⟩ := htop
  cases room with
  | zero => rfl
  | succ room =>
    rw [loopFrom?_eq hn ha hne hfresh]
    cases hparent : a.current.parent with
    | none => rfl
    | some name => exact loopFrom?_of_not_mem (hroot name hparent) (List.map_subset _ ha.mem) room

theorem loopFrom?_step (hn : t.ruleSetNames.Nodup) (ha : a.Sound t) (hne : a.current.name ≠ "")
    (h : Ascent.Step t a b) (room : ℕ) :
    t.loopFrom? (room + 1) a.names a.current.name = t.loopFrom? room b.names b.current.name := by
  have hext := ha.extends_current h
  obtain ⟨hfresh, -⟩ := h
  rw [loopFrom?_eq hn ha hne hfresh, hext.parent_eq]
  rfl

/-- The walk by names comes back where the way up does. -/
theorem exists_loopFrom? (hn : t.ruleSetNames.Nodup) (hs : s ∈ t.ruleSets) (hne : s.name ≠ "") :
    ∃ a, ReflTransGen (Ascent.Step t) (.start s) a ∧
      (a.Back ∧ t.loopFrom? (t.ruleSets.length + 2) [] s.name =
          some (a.names.dropWhile (· != a.current.name) ++ [a.current.name]) ∨
        a.Top t ∧ t.loopFrom? (t.ruleSets.length + 2) [] s.name = none) := by
  have hsound := Ascent.Sound.start hs
  obtain ⟨a, hrun, hend⟩ := hsound.exists_end
  have ha := hsound.run hrun
  have hname : a.current.name ≠ "" := by
    rcases ReflTransGen.cases_tail (hsound.reaches hrun) with hsame | ⟨c, -, hc⟩
    · rw [hsame]
      exact hne
    · exact hc.name_ne
  obtain ⟨k, hk, hroom⟩ := Ascent.run_eq (P := fun b => b.Sound t ∧ b.current.name ≠ "")
    (f := fun room b => t.loopFrom? room b.names b.current.name)
    (fun b c hb h => ⟨hb.1.step h, (hb.1.extends_current h).name_ne⟩)
    (fun b c hb h room => loopFrom?_step hn hb.1 hb.2 h room) ⟨hsound, hne⟩ hrun
  simp only [Ascent.start, Ascent.names, List.length_nil, Nat.zero_add, List.map_nil] at hk hroom
  have hle := ha.length_passed_le
  obtain ⟨room, hlen⟩ : ∃ room, t.ruleSets.length + 2 = room + 1 + k :=
    ⟨t.ruleSets.length + 1 - k, by omega⟩
  refine ⟨a, hrun, ?_⟩
  rw [hlen, hroom]
  exact hend.imp (fun hback => ⟨hback, loopFrom?_back hname hback room⟩)
    fun htop => ⟨htop, loopFrom?_top hn ha hname htop _⟩

/-- Every loop is one: its names differ, and each set extends the next. -/
theorem exists_loop (ha : a.Sound t) (hback : a.Back) : ∃ first rest,
    a.names.dropWhile (· != a.current.name) ++ [a.current.name] = first :: rest ++ [first] ∧
      (first :: rest).Nodup ∧ (first :: rest ++ [first]).IsChain t.NameExtends := by
  obtain ⟨before, rest, hnames⟩ := List.append_of_mem hback
  have hnodup := ha.nodup
  have hchain := ha.chain_names
  rw [Ascent.names_sets, hnames, List.append_assoc] at hchain
  rw [hnames] at hnodup ⊢
  have hbefore : ∀ name ∈ before, (name != a.current.name) = true := by
    intro name hname
    have hdiffer := (List.nodup_append.mp hnodup).2.2 name hname a.current.name (by simp)
    simpa using hdiffer
  rw [List.dropWhile_append_of_pos hbefore, List.dropWhile_cons_of_neg (by simp)]
  exact ⟨a.current.name, rest, rfl, hnodup.of_append_right, hchain.right_of_append⟩

theorem inheritanceError?_of_extends (h : t.Extends s p) : t.inheritanceError? s =
    if p.name = s.name then some (.selfExtending s.name)
    else (t.loopFrom? (t.ruleSets.length + 2) [] s.name).map .circular := by
  have hname : s.parentName? = some p.name := by
    simp [RuleSet.parentName?, h.parent_eq, h.name_ne]
  have hthere : (t.ruleSet? p.name).isNone = false := by
    rw [Option.isNone_eq_false_iff, Option.isSome_iff_ne_none]
    exact fun hnone => ruleSet?_eq_none.mp hnone (List.mem_map_of_mem h.parent_mem)
  simp [inheritanceError?, hname, hthere]

/-- A set without an end to its way up is reported, unless it has no name. -/
theorem inheritanceError?_of_endless (hn : t.ruleSetNames.Nodup) (hs : s ∈ t.ruleSets)
    (hne : s.name ≠ "") (h : t.Endless s) : t.inheritanceError? s ≠ none := by
  cases hp : t.parentOf? s with
  | none => exact absurd (parentOf?_eq_none.mp hp) (h s .refl)
  | some p =>
    rw [inheritanceError?_of_extends (.of_parentOf? hs hp)]
    obtain ⟨a, hrun, ⟨-, hloop⟩ | ⟨⟨-, hroot⟩, -⟩⟩ := exists_loopFrom? hn hs hne
    · rw [hloop]
      split_ifs <;> simp
    · exact absurd hroot (h _ ((Ascent.Sound.start hs).reaches hrun))

theorem inheritanceError?_eq_none (hn : t.ruleSetNames.Nodup) (hs : s ∈ t.ruleSets)
    (hparent : ∀ name, s.parent = some name → name = "" ∨ name ∈ t.ruleSetNames)
    (hend : ¬ t.Endless s) : t.inheritanceError? s = none := by
  cases hp : t.parentOf? s with
  | none =>
    have hname : s.parentName? = none := by
      refine Option.filter_eq_none_iff.mpr fun name hname => ?_
      have hroot := (parentOf?_eq_none.mp hp) name hname
      have hempty : name = "" := by
        rcases hparent name hname with hempty | hmem
        · exact hempty
        · exact hroot.resolve_right fun hmissing => hmissing hmem
      simp [hempty]
    rw [inheritanceError?, hname]
  | some p =>
    have hext := Extends.of_parentOf? hs hp
    have hself : p.name ≠ s.name := by
      intro hname
      have hsame : p = s := List.inj_on_of_nodup_map hn hext.parent_mem hs hname
      subst hsame
      exact hend (endless_of_loop hn (.single hext))
    rw [inheritanceError?_of_extends hext, if_neg hself, Option.map_eq_none_iff]
    by_cases hne : s.name = ""
    · exact loopFrom?_of_not_mem (Or.inl hne) (List.nil_subset _) _
    · have hsound := Ascent.Sound.start hs
      obtain ⟨a, hrun, ⟨hback, -⟩ | ⟨-, hnone⟩⟩ := exists_loopFrom? hn hs hne
      · have hloop := (hsound.run hrun).loop hn hback
        exact absurd ((endless_of_loop hn hloop).below hn (hsound.reaches hrun)) hend
      · exact hnone

theorem mem_inheritanceErrors {m : String} :
    m ∈ t.inheritanceErrors ↔ ∃ s ∈ t.ruleSets, ∃ e, t.inheritanceError? s = some e ∧
      e.message = m := by
  simp [inheritanceErrors]

theorem inheritanceErrors_eq_nil :
    t.inheritanceErrors = [] ↔ ∀ s ∈ t.ruleSets, t.inheritanceError? s = none := by
  rw [List.eq_nil_iff_forall_not_mem]
  constructor
  · intro h s hs
    by_contra herror
    obtain ⟨e, he⟩ := Option.ne_none_iff_exists'.mp herror
    exact h e.message (mem_inheritanceErrors.mpr ⟨s, hs, e, he, rfl⟩)
  · intro h m hm
    obtain ⟨s, hs, e, he, -⟩ := mem_inheritanceErrors.mp hm
    rw [h s hs] at he
    cases he

theorem parent_mem_of_inheritanceError? (h : t.inheritanceError? s = none) {name : String}
    (hparent : s.parent = some name) : name = "" ∨ name ∈ t.ruleSetNames := by
  by_contra hmissing
  obtain ⟨hne, hmem⟩ := not_or.mp hmissing
  have hname : s.parentName? = some name := by simp [RuleSet.parentName?, hparent, hne]
  have hnone : t.ruleSet? name = none := ruleSet?_eq_none.mpr hmem
  simp [inheritanceError?, hname, hnone] at h

theorem not_endless_of_inheritanceErrors (hn : t.ruleSetNames.Nodup) (hs : s ∈ t.ruleSets)
    (h : t.inheritanceErrors = []) : ¬ t.Endless s := by
  intro hendless
  -- the set itself may be without a name, but the set above it is not
  cases hp : t.parentOf? s with
  | none => exact hendless s .refl (parentOf?_eq_none.mp hp)
  | some p =>
    have hext := Extends.of_parentOf? hs hp
    exact inheritanceError?_of_endless hn hext.parent_mem hext.name_ne (hendless.above hext)
      (inheritanceErrors_eq_nil.mp h p hext.parent_mem)

/-- Only the message on a loop starts as that one does. -/
theorem InheritanceError.circular_of_startsWith {e : InheritanceError}
    (h : Text.startsWith "Circular inheritance detected" e.message = true) :
    ∃ path, e = .circular path := by
  have hother : ∀ m : String, m.toList[0]? = some 'R' →
      Text.startsWith "Circular inheritance detected" m = false :=
    fun m hm => Text.startsWith_eq_false (i := 0) (c := 'C') (by decide) hm (by decide)
  have hruleSet : "RuleSet \"".toList[0]? = some 'R' := by decide
  cases e with
  | missingParent name parent =>
    have hm := hother (missingParent name parent).message (Text.getElem?_toList_append
      (Text.getElem?_toList_append (Text.getElem?_toList_append
        (Text.getElem?_toList_append hruleSet _) _) _) _)
    exact absurd h (Bool.eq_false_iff.mp hm)
  | selfExtending name =>
    have hm := hother (selfExtending name).message
      (Text.getElem?_toList_append (Text.getElem?_toList_append hruleSet _) _)
    exact absurd h (Bool.eq_false_iff.mp hm)
  | circular path => exact ⟨path, rfl⟩

theorem loopFrom?_of_circular {path : List String}
    (h : t.inheritanceError? s = some (.circular path)) :
    t.loopFrom? (t.ruleSets.length + 2) [] s.name = some path := by
  unfold inheritanceError? at h
  split at h
  · cases h
  · split_ifs at h
    · cases h
    · cases h
    · obtain ⟨path', hpath, heq⟩ := Option.map_eq_some_iff.mp h
      cases heq
      exact hpath

/-- A message on a loop is about a loop, and other messages start otherwise. -/
theorem exists_loop_of_message (hn : t.ruleSetNames.Nodup) {m : String}
    (hm : m ∈ t.inheritanceErrors)
    (hstart : Text.startsWith "Circular inheritance detected" m = true) :
    ∃ first rest, m = "Circular inheritance detected: " ++
        Text.join " → " (first :: rest ++ [first]) ∧
      (first :: rest).Nodup ∧ (first :: rest ++ [first]).IsChain t.NameExtends := by
  obtain ⟨s, hs, e, he, rfl⟩ := mem_inheritanceErrors.mp hm
  obtain ⟨path, rfl⟩ := e.circular_of_startsWith hstart
  have hpath := loopFrom?_of_circular he
  have hne : s.name ≠ "" := by
    intro hempty
    rw [loopFrom?_of_not_mem (Or.inl hempty) (List.nil_subset _)] at hpath
    cases hpath
  obtain ⟨a, hrun, ⟨hback, hloop⟩ | ⟨-, hnone⟩⟩ := exists_loopFrom? hn hs hne
  · obtain ⟨first, rest, heq, hnodup, hchain⟩ :=
      exists_loop ((Ascent.Sound.start hs).run hrun) hback
    rw [hpath, heq] at hloop
    cases hloop
    exact ⟨first, rest, rfl, hnodup, hchain⟩
  · rw [hpath] at hnone
    cases hnone

/-- Nothing is reported exactly when every set has the parent that it names and can be resolved,
and every loop that is reported is one. -/
theorem inheritanceErrors_sound_complete (hn : t.ruleSetNames.Nodup) :
    (t.inheritanceErrors = [] ↔ ∀ ref s, t.lookUp ref = some s →
      (∀ name, s.parent = some name → name = "" ∨ name ∈ t.ruleSetNames) ∧
      ∃ rules, t.resolve ref = .ok rules) ∧
    ∀ m ∈ t.inheritanceErrors, Text.startsWith "Circular inheritance detected" m = true →
      ∃ first rest, m = "Circular inheritance detected: " ++
          Text.join " → " (first :: rest ++ [first]) ∧
        (first :: rest).Nodup ∧ (first :: rest ++ [first]).IsChain t.NameExtends := by
  refine ⟨⟨fun h ref s hs => ?_, fun h => ?_⟩, fun m => exists_loop_of_message hn⟩
  · have hmem := mem_of_lookUp hs
    refine ⟨fun name => parent_mem_of_inheritanceError? (inheritanceErrors_eq_nil.mp h s hmem), ?_⟩
    have hend := not_endless_of_inheritanceErrors hn hmem h
    obtain ⟨inherited, hrules, -⟩ := exists_inherited hn hs hend
    exact ⟨_, hrules⟩
  · refine inheritanceErrors_eq_nil.mpr fun s hs => ?_
    have hname : t.lookUp (.name s.name) = some s := ruleSet?_name hn hs
    obtain ⟨hparent, rules, hrules⟩ := h _ s hname
    refine inheritanceError?_eq_none hn hs hparent fun hendless => ?_
    obtain ⟨c, hc⟩ := (resolve_eq_error_iff hn hname).mpr hendless
    rw [hc] at hrules
    cases hrules

/-- The branch of the thicket above a stump that is a root. -/
def grove : Template where
  ruleSets := [branch, { stump with parent := none }]

theorem grove_thicket_inheritanceErrors :
    (grove.inheritanceErrors = [] ∧ ∃ rules, grove.resolve (.name "branch") = .ok rules) ∧
    thicket.inheritanceErrors ≠ [] ∧
    ∃ first rest, "Circular inheritance detected: " ++
        Text.join " → " ["left", "right", "left"] = "Circular inheritance detected: " ++
        Text.join " → " (first :: rest ++ [first]) ∧
      (first :: rest).Nodup ∧ (first :: rest ++ [first]).IsChain thicket.NameExtends := by
  constructor
  · have hvalid : grove.inheritanceErrors = [] :=
      inheritanceErrors_eq_nil.mpr (by decide)
    obtain ⟨hiff, -⟩ := inheritanceErrors_sound_complete (t := grove) (by decide)
    exact ⟨hvalid, (hiff.mp hvalid (.name "branch") branch rfl).2⟩
  · obtain ⟨hiff, hloops⟩ := inheritanceErrors_sound_complete (t := thicket) (by decide)
    have hloop : thicket.inheritanceError? leaf = some (.circular ["left", "right", "left"]) := rfl
    refine ⟨?_, hloops _ (mem_inheritanceErrors.mpr ⟨leaf, by decide, _, hloop, rfl⟩) (by decide)⟩
    intro hvalid
    obtain ⟨-, rules, hrules⟩ := hiff.mp hvalid (.name "leaf") leaf rfl
    cases hrules

end Template

end FieldRules
