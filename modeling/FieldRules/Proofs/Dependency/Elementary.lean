import FieldRules.Proofs.Dependency.Order

/-! The cycles that are found between rules: each is a genuine one, without a detour through a field
that it has left, and no two are closed by the same pair. -/
namespace FieldRules.Dependency

variable {g : Dependency} {rules : List Rule} {path : List String} {u v : String}

/-- A rule has a condition on the first field and a target on the second. -/
def Drives (rules : List Rule) (u v : String) : Prop :=
  ∃ r ∈ rules, (∃ c ∈ r.conditionList, c.name = u) ∧ ∃ t ∈ r.targets, t.name = v

theorem drives_of_edge (h : (ofRules rules).Edge u v) : Drives rules u v := by
  obtain ⟨r, hr, c, hc, rfl, t, ht, -, rfl⟩ := edge_ofRules.mp h
  exact ⟨r, hr, ⟨c, hc, rfl⟩, t, ht, rfl⟩

theorem ne_of_edge (h : (ofRules rules).Edge u v) : u ≠ v := by
  obtain ⟨r, -, c, -, rfl, t, -, hne, rfl⟩ := edge_ofRules.mp h
  exact hne.symm

/-- No field depends on itself directly, so a cycle goes through a second one. -/
theorem IsCycle.three_le_length (h : (ofRules rules).IsCycle path) : 3 ≤ path.length := by
  match path, h with
  | [], h => exact absurd h.two_le_length (by simp)
  | [_], h => exact absurd h.two_le_length (by simp)
  | [u, v], h =>
    have hne : u ≠ v := ne_of_edge (List.isChain_cons_cons.mp h.chain).1
    exact absurd (Option.some.inj h.closed) hne
  | _ :: _ :: _ :: _, _ => exact Nat.le_add_left 3 _

theorem IsCycle.exists_closingPair? (h : g.IsCycle path) : ∃ e, closingPair? path = some e := by
  cases path using List.reverseRec with
  | nil => exact absurd h.two_le_length (by simp)
  | append_singleton path v =>
    have hne : path ≠ [] := by
      rintro rfl
      exact absurd h.two_le_length (by simp)
    rw [closingPair?_append, List.getLast?_eq_some_getLast hne]
    exact ⟨_, rfl⟩

/-- Paths with a closing pair each, all different, are told apart by these pairs. -/
theorem pairwise_closingPair? {paths : List (List String)} (hn : (closingPairs paths).Nodup)
    (hp : ∀ p ∈ paths, ∃ e, closingPair? p = some e) :
    paths.Pairwise fun p q => closingPair? p ≠ closingPair? q := by
  refine (List.pairwise_filterMap.mp hn).imp_of_mem fun {p q} hpm _ hpq heq => ?_
  obtain ⟨e, he⟩ := hp p hpm
  exact hpq e he e (heq ▸ he) rfl

/-- Every cycle runs along a pair that closes one of the cycles that are found. -/
theorem IsCycle.exists_closing (hg : g.WellFormed) (h : g.IsCycle path) :
    ∃ e ∈ path.zip path.tail, e ∈ closingPairs g.cycles := by
  obtain ⟨order, hn, hsub, hset, -, -⟩ := exists_search hg
  by_contra hnone
  -- otherwise it is left when these pairs are taken away, and no cycle is
  have hleft : (g.without (closingPairs g.cycles)).IsCycle path := by
    refine ⟨h.two_le_length, List.isChain_iff_getElem.mpr fun i hi => ?_, h.closed, h.nodup⟩
    refine edge_without.mpr ⟨h.chain.getElem i hi, fun hmem => hnone ⟨_, ?_, hmem⟩⟩
    have hlt : i < (path.zip path.tail).length := by
      simp only [List.length_zip, List.length_tail]
      omega
    have hget : (path.zip path.tail)[i] = (path[i], path[i + 1]) := by simp
    exact hget ▸ List.getElem_mem hlt
  exact hleft.not_acyclic (hset.acyclic hn hsub)

/-- What is found are elementary cycles: paths of three or more fields that end where they start,
pass through no field twice and go on only from a condition of a rule to one of its targets. No two
are closed by the same pair, and every cycle runs along a pair that closes one of them. -/
theorem cycles_elementary (rules : List Rule) :
    (∀ p ∈ (ofRules rules).cycles,
      3 ≤ p.length ∧ p.head? = p.getLast? ∧ p.dropLast.Nodup ∧ p.IsChain (Drives rules)) ∧
    (ofRules rules).cycles.Pairwise (fun p q => closingPair? p ≠ closingPair? q) ∧
    ∀ p, (ofRules rules).IsCycle p →
      ∃ e ∈ p.zip p.tail, e ∈ closingPairs (ofRules rules).cycles := by
  have hg := wellFormed_ofRules rules
  obtain ⟨-, -, -, -, hfound, hn⟩ := exists_search hg
  have hcycle : ∀ p ∈ (ofRules rules).cycles, (ofRules rules).IsCycle p :=
    fun p hp => (hfound p hp).1
  refine ⟨fun p hp => ?_, ?_, fun p hp => hp.exists_closing hg⟩
  · have h := hcycle p hp
    exact ⟨h.three_le_length, h.closed, h.nodup, h.chain.imp fun _ _ => drives_of_edge⟩
  · exact pairwise_closingPair? hn fun p hp => (hcycle p hp).exists_closingPair?

/-- Three fields, each of which drives two others, and a fourth on a second way from `p` to `q`. -/
def knot : List Rule := [
  { conditions := some [⟨"p", .set none, false⟩],
    targets := [⟨"q", .set none, false⟩, ⟨"s", .set none, false⟩] },
  { conditions := some [⟨"q", .set none, false⟩],
    targets := [⟨"r", .set none, false⟩, ⟨"p", .set none, false⟩] },
  { conditions := some [⟨"r", .set none, false⟩],
    targets := [⟨"p", .set none, true⟩, ⟨"q", .set none, true⟩] },
  { conditions := some [⟨"s", .set none, false⟩], targets := [⟨"q", .set none, false⟩] }]

/-- The cycle by `s` is not among those that are found, but it closes with the last of them. -/
theorem knot_elementary :
    (ofRules knot).cycles = [["p", "q", "r", "p"], ["q", "r", "q"], ["p", "q", "p"]] ∧
      ["q", "r", "q"].dropLast.Nodup ∧ ["q", "r", "q"].IsChain (Drives knot) ∧
      (ofRules knot).IsCycle ["p", "s", "q", "p"] ∧
      ∃ e ∈ [("p", "s"), ("s", "q"), ("q", "p")], e ∈ closingPairs (ofRules knot).cycles := by
  have hfound : (ofRules knot).cycles =
      [["p", "q", "r", "p"], ["q", "r", "q"], ["p", "q", "p"]] := by decide
  have hmem : ["q", "r", "q"] ∈ (ofRules knot).cycles := by simp [hfound]
  have hcycle : (ofRules knot).IsCycle ["p", "s", "q", "p"] :=
    ⟨by decide, by decide, rfl, by decide⟩
  obtain ⟨helementary, -, hcovered⟩ := cycles_elementary knot
  obtain ⟨-, -, hnodup, hchain⟩ := helementary _ hmem
  exact ⟨hfound, hnodup, hchain, hcycle, hcovered _ hcycle⟩

end FieldRules.Dependency
