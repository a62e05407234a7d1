import FieldRules.Proofs.Dependency.Order
import FieldRules.Proofs.Text.Split
import FieldRules.Rule.Check

/-! Which cycles a check of rules reports: of the cycles that the search finds, those that leave the
contrapositive rules. A cycle that the search does not find can hide behind one that lies in them
and shares its closing pair. -/
namespace FieldRules.Dependency

/-- A name that can be read back from a message on a cycle. -/
def Legible (name : String) : Prop :=
  '→' ∉ name.toList ∧ Text.Trimmed name

instance (name : String) : Decidable (Legible name) :=
  inferInstanceAs (Decidable (_ ∧ _))

theorem pathOf?_cycleMessage {path : List String} (hne : path ≠ [])
    (hl : ∀ name ∈ path, Legible name) : pathOf? (cycleMessage path) = some path := by
  have harrow : arrow = String.ofList (' ' :: '→' :: [' ']) := rfl
  have hdrop : (cycleMessage path).toList.drop cycleStart.length =
      (Text.join arrow path).toList := by
    rw [cycleMessage, String.toList_append, ← String.length_toList, List.drop_left]
  have hsplit : Text.split arrow (Text.join arrow path) = path := by
    rw [harrow]
    exact Text.split_join (by decide) hne fun p hp => (hl p hp).1
  have htrim : path.map Text.trim = path := by
    rw [List.map_congr_left fun p hp => (hl p hp).2.trim_eq, List.map_id']
  unfold pathOf?
  rw [cycleMessage, if_pos (Text.startsWith_append _ _), ← cycleMessage, hdrop,
    String.ofList_toList, hsplit, htrim]

/-- Reading the messages back loses nothing: those stay whose path leaves the contrapositive
rules. -/
theorem harmful_map_cycleMessage (rules : List Rule) {paths : List (List String)}
    (hne : ∀ p ∈ paths, p ≠ []) (hl : ∀ p ∈ paths, ∀ name ∈ p, Legible name) :
    harmful (paths.map cycleMessage) rules = (paths.filter fun p =>
      !p.all (Rule.contrapositiveNames rules).contains).map cycleMessage := by
  unfold harmful
  split
  · rename_i h
    have hnil : paths = [] := by simpa using h
    rw [hnil]
    rfl
  · rw [List.filter_map]
    refine congrArg _ (List.filter_congr fun p hp => ?_)
    simp [pathOf?_cycleMessage (hne p hp) (hl p hp)]

theorem mem_names_of_edge {rules : List Rule} {u v : String} (h : (ofRules rules).Edge u v) :
    ∃ r ∈ rules, u ∈ r.names ∧ v ∈ r.names := by
  obtain ⟨r, hr, c, hc, rfl, t, ht, -, rfl⟩ := edge_ofRules.mp h
  refine ⟨r, hr, ?_, ?_⟩
  · exact List.mem_map_of_mem (List.mem_append_left _ hc)
  · exact List.mem_map_of_mem (List.mem_append_right _ ht)

/-- Every field of a cycle is one end of a pair. -/
theorem IsCycle.exists_edge {g : Dependency} {path : List String} (h : g.IsCycle path) {u : String}
    (hu : u ∈ path) : ∃ v, g.Edge u v ∨ g.Edge v u := by
  obtain ⟨p, q, rfl⟩ := List.append_of_mem hu
  have hlen := h.two_le_length
  cases q with
  | cons w q =>
    have := (List.isChain_append.mp h.chain).2.1
    exact ⟨w, Or.inl (List.isChain_cons_cons.mp this).1⟩
  | nil =>
    cases p using List.reverseRec with
    | nil => simp at hlen
    | append_singleton p w =>
      have := List.isChain_append.mp h.chain
      exact ⟨w, Or.inr (this.2.2 w (by simp) u rfl)⟩

section

variable {rules : List Rule}

theorem legible_of_mem_cycle (hl : ∀ r ∈ rules, ∀ name ∈ r.names, Legible name)
    {p : List String} (hp : p ∈ (ofRules rules).cycles) {name : String} (hn : name ∈ p) :
    Legible name := by
  obtain ⟨-, -, -, -, hcycles, -⟩ := exists_search (wellFormed_ofRules rules)
  obtain ⟨v, hv⟩ := (hcycles p hp).1.exists_edge hn
  rcases hv with hv | hv
  · obtain ⟨r, hr, hu, -⟩ := mem_names_of_edge hv
    exact hl r hr name hu
  · obtain ⟨r, hr, -, hu⟩ := mem_names_of_edge hv
    exact hl r hr name hu

theorem ne_nil_of_mem_cycles {p : List String} (hp : p ∈ (ofRules rules).cycles) : p ≠ [] := by
  obtain ⟨-, -, -, -, hcycles, -⟩ := exists_search (wellFormed_ofRules rules)
  have := (hcycles p hp).1.two_le_length
  exact List.ne_nil_of_length_pos (by omega)

/-- Of the cycles found, those stay whose path leaves the contrapositive rules. -/
theorem harmful_cycleMessages (hl : ∀ r ∈ rules, ∀ name ∈ r.names, Legible name) :
    harmful (cycleMessages rules) rules = ((ofRules rules).cycles.filter fun p =>
      !p.all (Rule.contrapositiveNames rules).contains).map cycleMessage :=
  harmful_map_cycleMessage rules (fun _ hp => ne_nil_of_mem_cycles hp)
    fun _ hp _ hn => legible_of_mem_cycle hl hp hn

theorem mem_harmful (hl : ∀ r ∈ rules, ∀ name ∈ r.names, Legible name) {e : String} :
    e ∈ harmful (cycleMessages rules) rules ↔ ∃ p ∈ (ofRules rules).cycles,
      (∃ name ∈ p, name ∉ Rule.contrapositiveNames rules) ∧ cycleMessage p = e := by
  rw [harmful_cycleMessages hl]
  simp [and_assoc]

end

/-- Messages on contradictions differ from those on cycles from the second character on. -/
theorem startsWith_cycleStart_eq_false {s : String} (h : s.toList[1]? = some 'o') :
    Text.startsWith cycleStart s = false :=
  Text.startsWith_eq_false (i := 1) (c := 'i') (by decide) h (by decide)

theorem startsWith_message (name : String) (c : Conflict) :
    Text.startsWith cycleStart (c.message name) = false := by
  have h : "Contradiction detected for field \"".toList[1]? = some 'o' := by decide
  apply startsWith_cycleStart_eq_false
  exact Text.getElem?_toList_append (Text.getElem?_toList_append (Text.getElem?_toList_append
    (Text.getElem?_toList_append h _) _) _) _

theorem startsWith_disputeMessage (number : ℕ) (kind name : String) :
    Text.startsWith cycleStart (Rule.disputeMessage number kind name) = false := by
  have h : "Contradiction detected in rule ".toList[1]? = some 'o' := by decide
  apply startsWith_cycleStart_eq_false
  exact Text.getElem?_toList_append (Text.getElem?_toList_append (Text.getElem?_toList_append
    (Text.getElem?_toList_append (Text.getElem?_toList_append h _) _) _) _) _

/-- The errors that are not on contradictions are on harmful cycles. -/
theorem mem_errors_iff {rules : List Rule} {e : String}
    (he : Text.startsWith cycleStart e = true) :
    e ∈ (Check.ofRules {} rules).errors ↔ e ∈ harmful (cycleMessages rules) rules := by
  have hcontra : e ∉ Rule.contradictions rules := by
    intro h
    obtain ⟨group, -, h⟩ := List.mem_flatMap.mp h
    obtain ⟨⟨name, targets⟩, -, h⟩ := List.mem_flatMap.mp h
    obtain ⟨⟨t, u⟩, -, h⟩ := List.mem_filterMap.mp h
    obtain ⟨c, -, rfl⟩ := Option.map_eq_some_iff.mp h
    simp [startsWith_message] at he
  have hdispute : e ∉ Rule.disputes rules := by
    intro h
    obtain ⟨⟨r, i⟩, -, h⟩ := List.mem_flatMap.mp h
    rcases List.mem_append.mp h with h | h
    · obtain ⟨name, -, rfl⟩ := List.mem_map.mp h
      simp [startsWith_disputeMessage] at he
    · obtain ⟨name, -, rfl⟩ := List.mem_map.mp h
      simp [startsWith_disputeMessage] at he
  simp [Check.ofRules, hcontra, hdispute]

/-- The cycles found that lie wholly in contrapositive rules. -/
def harmlessCycles (rules : List Rule) : List (List String) :=
  (ofRules rules).cycles.filter fun p => p.all (Rule.contrapositiveNames rules).contains

theorem mem_harmlessCycles {rules : List Rule} {p : List String} :
    p ∈ harmlessCycles rules ↔
      p ∈ (ofRules rules).cycles ∧ ∀ name ∈ p, name ∈ Rule.contrapositiveNames rules := by
  simp [harmlessCycles]

/-- A found cycle that leaves the contrapositive rules has another closing pair than those that
do not. -/
theorem isCycle_without_harmless {rules : List Rule} {p : List String}
    (hp : p ∈ (ofRules rules).cycles)
    (hout : ∃ name ∈ p, name ∉ Rule.contrapositiveNames rules) :
    ((ofRules rules).without (closingPairs (harmlessCycles rules))).IsCycle p := by
  obtain ⟨-, -, -, -, hcycles, hnodup⟩ := exists_search (wellFormed_ofRules rules)
  obtain ⟨hcycle, hkept⟩ := hcycles p hp
  have hsub : closingPairs (harmlessCycles rules) ⊆ closingPairs (ofRules rules).cycles :=
    (List.filter_sublist.filterMap closingPair?).subset
  have hclose : ∀ e, closingPair? p = some e → e ∉ closingPairs (harmlessCycles rules) := by
    intro e he hmem
    obtain ⟨q, hq, heq⟩ := List.mem_filterMap.mp hmem
    obtain ⟨hq, hall⟩ := mem_harmlessCycles.mp hq
    obtain ⟨name, hname, hnot⟩ := hout
    rw [eq_of_closingPair?_eq hnodup hp hq he heq] at hname
    exact hnot (hall name hname)
  refine ⟨hcycle.two_le_length, ?_, hcycle.closed, hcycle.nodup⟩
  refine isChain_of_dropLast (hkept.imp fun u v h => ?_) fun u v h => ?_
  · exact edge_without.mpr ⟨h.1, fun hmem => h.2 (hsub hmem)⟩
  · obtain ⟨q, hq⟩ := eq_append_of_closingPair? h
    have hchain := hcycle.chain
    rw [hq] at hchain
    have he : (ofRules rules).Edge u v := List.isChain_pair.mp hchain.right_of_append
    exact edge_without.mpr ⟨he, hclose (u, v) h⟩

/-- A cycle that avoids the closing pairs of the harmless cycles is not the only one: one that is
found and reported is there as well. -/
theorem exists_harmful_of_isCycle {rules : List Rule} {p : List String}
    (hp : ((ofRules rules).without (closingPairs (harmlessCycles rules))).IsCycle p) :
    ∃ q ∈ (ofRules rules).cycles, ∃ name ∈ q, name ∉ Rule.contrapositiveNames rules := by
  by_contra hnone
  have hall : harmlessCycles rules = (ofRules rules).cycles := by
    refine List.filter_eq_self.mpr fun q hq => ?_
    simp only [List.all_eq_true, List.contains_iff_mem]
    intro name hname
    by_contra hnot
    exact hnone ⟨q, hq, name, hname, hnot⟩
  rw [hall] at hp
  obtain ⟨order, hn, hsub, hset, -, -⟩ := exists_search (wellFormed_ofRules rules)
  exact hp.not_acyclic (hset.acyclic hn hsub)

/-- A cycle in which of two neighbours one is no contrapositive name avoids all closing pairs of
harmless cycles. -/
theorem IsCycle.without_harmless {rules : List Rule} {p : List String}
    (hp : (ofRules rules).IsCycle p)
    (hout : p.IsChain fun u v =>
      u ∉ Rule.contrapositiveNames rules ∨ v ∉ Rule.contrapositiveNames rules) :
    ((ofRules rules).without (closingPairs (harmlessCycles rules))).IsCycle p := by
  refine ⟨hp.two_le_length, List.isChain_iff_getElem.mpr fun i hi => ?_, hp.closed, hp.nodup⟩
  refine edge_without.mpr ⟨hp.chain.getElem i hi, fun hmem => ?_⟩
  obtain ⟨q, hq, hclose⟩ := List.mem_filterMap.mp hmem
  obtain ⟨-, hall⟩ := mem_harmlessCycles.mp hq
  obtain ⟨q, rfl⟩ := eq_append_of_closingPair? hclose
  rcases hout.getElem i hi with hu | hv
  · exact hu (hall _ (by simp))
  · exact hv (hall _ (by simp))

/-- A cycle is reported exactly if one goes through a field outside all contrapositive rules and
avoids the closing pairs of the harmless cycles; so it is wherever a cycle has no two neighbours in
contrapositive rules. -/
theorem exists_circular_error_iff {rules : List Rule}
    (hl : ∀ r ∈ rules, ∀ name ∈ r.names, Legible name) :
    ((∃ e ∈ (Check.ofRules {} rules).errors, Text.startsWith cycleStart e = true) ↔
      ∃ p, ((ofRules rules).without (closingPairs (harmlessCycles rules))).IsCycle p ∧
        ∃ name ∈ p, name ∉ Rule.contrapositiveNames rules) ∧
    ∀ p, (ofRules rules).IsCycle p →
      p.IsChain (fun u v =>
        u ∉ Rule.contrapositiveNames rules ∨ v ∉ Rule.contrapositiveNames rules) →
      ∃ e ∈ (Check.ofRules {} rules).errors, Text.startsWith cycleStart e = true := by
  have hreport : ∀ q ∈ (ofRules rules).cycles,
      (∃ name ∈ q, name ∉ Rule.contrapositiveNames rules) →
      ∃ e ∈ (Check.ofRules {} rules).errors, Text.startsWith cycleStart e = true := by
    intro q hq hout
    have hs : Text.startsWith cycleStart (cycleMessage q) = true := Text.startsWith_append _ _
    exact ⟨_, (mem_errors_iff hs).mpr ((mem_harmful hl).mpr ⟨q, hq, hout, rfl⟩), hs⟩
  refine ⟨⟨?_, ?_⟩, ?_⟩
  · rintro ⟨e, he, hs⟩
    obtain ⟨p, hp, hout, -⟩ := (mem_harmful hl).mp ((mem_errors_iff hs).mp he)
    exact ⟨p, isCycle_without_harmless hp hout, hout⟩
  · rintro ⟨p, hp, -⟩
    obtain ⟨q, hq, hout⟩ := exists_harmful_of_isCycle hp
    exact hreport q hq hout
  · intro p hp hout
    obtain ⟨q, hq, hout⟩ := exists_harmful_of_isCycle (hp.without_harmless hout)
    exact hreport q hq hout

/-- If `a` is set, `b` is not, and if `b` is not set, `a` is. -/
def seesaw : List Rule := [
  { conditions := some [⟨"a", .set none, false⟩], targets := [⟨"b", .set none, true⟩] },
  { conditions := some [⟨"b", .set none, true⟩], targets := [⟨"a", .set none, false⟩] }]

/-- If `a` is set, `c` is, and if `c` is set, `b` is. -/
def detour : List Rule := [
  { conditions := some [⟨"a", .set none, false⟩], targets := [⟨"c", .set none, false⟩] },
  { conditions := some [⟨"c", .set none, false⟩], targets := [⟨"b", .set none, false⟩] }]

theorem mem_contrapositiveNames {rules : List Rule} {name : String} :
    name ∈ Rule.contrapositiveNames rules ↔
      ∃ p ∈ Grouping.pairs rules, p.1.isContrapositive p.2 = true ∧
        (name ∈ p.1.names ∨ name ∈ p.2.names) := by
  simp [Rule.contrapositiveNames, and_assoc]

/-- The cycle by `c` closes with the same pair as the one without it, which is found first and is
harmless; so nothing is reported. -/
theorem detour_not_reported :
    (∀ r ∈ seesaw ++ detour, ∀ name ∈ r.names, Legible name) ∧
      (ofRules (seesaw ++ detour)).IsCycle ["a", "c", "b", "a"] ∧
      "c" ∉ Rule.contrapositiveNames (seesaw ++ detour) ∧
      ¬ ∃ e ∈ (Check.ofRules {} (seesaw ++ detour)).errors,
        Text.startsWith cycleStart e = true := by
  have hl : ∀ r ∈ seesaw ++ detour, ∀ name ∈ r.names, Legible name := by decide
  have hcycles : (ofRules (seesaw ++ detour)).cycles = [["a", "b", "a"]] := by decide
  have hin : ∀ name ∈ ["a", "b", "a"], ∃ p ∈ Grouping.pairs (seesaw ++ detour),
      p.1.isContrapositive p.2 = true ∧ (name ∈ p.1.names ∨ name ∈ p.2.names) := by decide
  refine ⟨hl, ⟨by decide, by decide, rfl, by decide⟩, ?_, ?_⟩
  · rw [mem_contrapositiveNames]
    decide
  · rintro ⟨e, he, hs⟩
    obtain ⟨p, hp, ⟨name, hname, hnot⟩, -⟩ := (mem_harmful hl).mp ((mem_errors_iff hs).mp he)
    rw [hcycles, List.mem_singleton] at hp
    subst hp
    exact hnot (mem_contrapositiveNames.mpr (hin name hname))

/-- When `c` comes first the same cycle is the one that is found. -/
theorem detour_reported :
    (∀ r ∈ detour ++ seesaw, ∀ name ∈ r.names, Legible name) ∧
      ∃ e ∈ (Check.ofRules {} (detour ++ seesaw)).errors, Text.startsWith cycleStart e = true := by
  have hl : ∀ r ∈ detour ++ seesaw, ∀ name ∈ r.names, Legible name := by decide
  have hout : "c" ∉ Rule.contrapositiveNames (detour ++ seesaw) := by
    rw [mem_contrapositiveNames]
    decide
  refine ⟨hl, (exists_circular_error_iff hl).1.mpr ⟨["a", "c", "b", "a"], ?_, "c", by simp, hout⟩⟩
  have hcycles : (ofRules (detour ++ seesaw)).cycles = [["a", "c", "b", "a"]] := by decide
  exact isCycle_without_harmless (by simp [hcycles]) ⟨"c", by simp, hout⟩

/-- The filter keeps, in their order, the messages on the cycles found that go through a field
outside all contrapositive rules; although it reads the messages back, nothing else decides. -/
theorem harmful_eq_leaving {rules : List Rule}
    (hl : ∀ r ∈ rules, ∀ name ∈ r.names, Legible name) :
    harmful (cycleMessages rules) rules = ((ofRules rules).cycles.filter fun p =>
      ∃ name ∈ p, name ∉ Rule.contrapositiveNames rules).map cycleMessage := by
  rw [harmful_cycleMessages hl]
  refine congrArg _ (List.filter_congr fun p _ => ?_)
  rw [Bool.eq_iff_iff]
  simp

/-- If the field without a name is set, `b -> a` is, and the other way round. -/
def nameless : List Rule := [
  { conditions := some [⟨"", .set none, false⟩], targets := [⟨"b -> a", .set none, false⟩] },
  { conditions := some [⟨"b -> a", .set none, false⟩], targets := [⟨"", .set none, false⟩] }]

/-- The empty name is read back from between two blanks, and an arrow of two signs is no arrow. -/
theorem nameless_harmful :
    (∀ r ∈ seesaw ++ nameless, ∀ name ∈ r.names, Legible name) ∧
      cycleMessages (seesaw ++ nameless) =
        ["Circular dependency detected: a → b → a", "Circular dependency detected:  → b -> a → "] ∧
      harmful (cycleMessages (seesaw ++ nameless)) (seesaw ++ nameless) =
        ["Circular dependency detected:  → b -> a → "] := by
  have hl : ∀ r ∈ seesaw ++ nameless, ∀ name ∈ r.names, Legible name := by decide
  have hcycles : (ofRules (seesaw ++ nameless)).cycles = [["a", "b", "a"], ["", "b -> a", ""]] := by
    decide
  have hin : ¬ ∃ name ∈ ["a", "b", "a"], name ∉ Rule.contrapositiveNames (seesaw ++ nameless) := by
    simp only [mem_contrapositiveNames]
    decide
  have hout : ∃ name ∈ ["", "b -> a", ""],
      name ∉ Rule.contrapositiveNames (seesaw ++ nameless) := by
    simp only [mem_contrapositiveNames]
    decide
  refine ⟨hl, ?_, ?_⟩
  · rw [cycleMessages, hcycles]
    decide
  · rw [harmful_eq_leaving hl, hcycles, List.filter_cons_of_neg (by simpa using hin),
      List.filter_cons_of_pos (by simpa using hout), List.filter_nil]
    decide

end FieldRules.Dependency
