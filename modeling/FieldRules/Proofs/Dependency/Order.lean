import FieldRules.Proofs.Dependency.Closing
import Mathlib.Data.Finset.Card

/-! The order in which fields leave the path of the search. Every pair that closes no cycle leads
to a field that left the path earlier, so without the closing pairs there are no cycles. -/
namespace FieldRules.Dependency

variable {g : Dependency} {done done' : List String} {s s' : Search} {u v : String}

/-- Fields in an order in which every pair closes a cycle or leads further back. -/
def Settled (g : Dependency) (closing : List (String × String)) : List String → Prop
  | [] => True
  | u :: order => (∀ v, g.Edge u v → (u, v) ∈ closing ∨ v ∈ order) ∧ Settled g closing order

theorem Settled.mono {closing closing' : List (String × String)} {order : List String}
    (hsub : closing ⊆ closing') (h : Settled g closing order) : Settled g closing' order := by
  induction order with
  | nil => trivial
  | cons u order ih => exact ⟨fun v hv => (h.1 v hv).imp_left (@hsub _), ih h.2⟩

/-- An order of this kind goes only forward along the pairs that close no cycle. -/
theorem Settled.idxOf_lt {closing : List (String × String)} {order : List String}
    (h : Settled g closing order) (hn : order.Nodup) (hu : u ∈ order) (he : g.Edge u v)
    (hc : (u, v) ∉ closing) : v ∈ order ∧ order.idxOf u < order.idxOf v := by
  induction order with
  | nil => simp at hu
  | cons w order ih =>
    obtain ⟨hw, hn⟩ := List.nodup_cons.mp hn
    by_cases huw : u = w
    · subst huw
      have hv := (h.1 v he).resolve_left hc
      have hvu : u ≠ v := fun heq => hw (heq ▸ hv)
      refine ⟨List.mem_cons_of_mem u hv, ?_⟩
      rw [List.idxOf_cons_self, List.idxOf_cons_ne _ hvu]
      omega
    · obtain ⟨hv, hlt⟩ := ih h.2 hn ((List.mem_cons.mp hu).resolve_left huw)
      have hwv : w ≠ v := fun heq => hw (heq ▸ hv)
      refine ⟨List.mem_cons_of_mem w hv, ?_⟩
      rw [List.idxOf_cons_ne _ (Ne.symm huw), List.idxOf_cons_ne _ hwv]
      omega

theorem Settled.acyclic {closing : List (String × String)} {order : List String}
    (h : Settled g closing order) (hn : order.Nodup) (hsub : g.nodes ⊆ order) :
    (g.without closing).Acyclic := by
  intro u hu
  have hlt : ∀ {x y}, Relation.TransGen (g.without closing).Edge x y →
      order.idxOf x < order.idxOf y := by
    intro x y hxy
    induction hxy with
    | single he =>
      obtain ⟨he, hc⟩ := edge_without.mp he
      exact (h.idxOf_lt hn (hsub (mem_nodes_of_edge he)) he hc).2
    | tail _ he ih =>
      obtain ⟨he, hc⟩ := edge_without.mp he
      exact ih.trans (h.idxOf_lt hn (hsub (mem_nodes_of_edge he)) he hc).2
  exact lt_irrefl _ (hlt hu)

namespace Search

/-- The same of the fields on the path, once they have left it: the pairs of a frame that have been
looked at lead to fields that leave the path before it, or close a cycle. -/
def Explored (g : Dependency) (closing : List (String × String)) :
    List String → List Frame → Prop
  | _, [] => True
  | order, f :: fs =>
    (∀ v, g.Edge f.node v → v ∈ f.left ∨ (f.node, v) ∈ closing ∨ v ∈ order) ∧
      Explored g closing (f.node :: order) fs

theorem Explored.mono {closing closing' : List (String × String)} {order order' : List String}
    {fs : List Frame} (hc : closing ⊆ closing') (ho : order ⊆ order')
    (h : Explored g closing order fs) : Explored g closing' order' fs := by
  induction fs generalizing order order' with
  | nil => trivial
  | cons f fs ih =>
    exact ⟨fun v hv => (h.1 v hv).imp_right (Or.imp (@hc _) (@ho _)),
      ih (List.cons_subset_cons f.node ho) h.2⟩

/-- The fields that have left the path are settled, and those on it will be. -/
structure Ordered (g : Dependency) (done : List String) (s : Search) : Prop where
  settled : Settled g (closingPairs s.cycles) done
  explored : Explored g (closingPairs s.cycles) done s.frames

namespace Ordered

theorem push (h : Ordered g done s) (hf : s.frames = []) : Ordered g done (s.push g u) where
  settled := h.settled
  explored := by
    simp only [Search.push, hf, Explored]
    exact ⟨fun v hv => Or.inl hv, trivial⟩

theorem step (hc : Coherent g done s) (h : Ordered g done s) (hs : Step g done s done' s') :
    Ordered g done' s' := by
  obtain ⟨hset, hexp⟩ := h
  cases hs with
  | leave hf =>
    rw [hf] at hexp
    exact ⟨⟨fun v hv => (hexp.1 v hv).resolve_left (by simp), hset⟩, hexp.2⟩
  | @close u v vs fs hf hv =>
    rw [hf] at hexp
    have hpairs := closingPairs_append (hc.closingPair?_cycleTo hf hv) s.cycles
    have hsub : closingPairs s.cycles ⊆ closingPairs (s.cycles ++ [s.cycleTo v]) := by
      rw [hpairs]
      exact List.subset_append_left _ _
    refine ⟨hset.mono hsub, ?_, hexp.2.mono hsub (List.Subset.refl _)⟩
    intro w hw
    rcases hexp.1 w hw with hl | hl | hl
    · rcases List.mem_cons.mp hl with rfl | hl
      · exact Or.inr (Or.inl (by simp [hpairs]))
      · exact Or.inl hl
    · exact Or.inr (Or.inl (hsub hl))
    · exact Or.inr (Or.inr hl)
  | @skip u v vs fs hf hp hv =>
    rw [hf] at hexp
    -- a field that was visited and is not on the path has left it
    have hdone : v ∈ done := (hc.mem_visited.mp hv).resolve_left hp
    refine ⟨hset, fun w hw => ?_, hexp.2⟩
    rcases hexp.1 w hw with hl | hl
    · rcases List.mem_cons.mp hl with rfl | hl
      · exact Or.inr (Or.inr hdone)
      · exact Or.inl hl
    · exact Or.inr hl
  | @enter u v vs fs hf hv =>
    rw [hf] at hexp
    refine ⟨hset, fun w hw => Or.inl hw, fun w hw => ?_, ?_⟩
    · rcases hexp.1 w hw with hl | hl | hl
      · rcases List.mem_cons.mp hl with rfl | hl
        · exact Or.inr (Or.inr List.mem_cons_self)
        · exact Or.inl hl
      · exact Or.inr (Or.inl hl)
      · exact Or.inr (Or.inr (List.mem_cons_of_mem v hl))
    · exact hexp.2.mono (List.Subset.refl _)
        (List.cons_subset_cons u (List.subset_cons_self v done))

end Ordered

end Search

/-- What the search over all fields finds: an order of all fields that goes only forward along the
pairs that close no cycle, and cycles that run along such pairs but for the one that closes them. -/
theorem exists_search (hg : g.WellFormed) :
    ∃ order, order.Nodup ∧ g.nodes ⊆ order ∧ Settled g (closingPairs g.cycles) order ∧
      (∀ p ∈ g.cycles, g.IsCycle p ∧
        p.dropLast.IsChain fun u v => g.Edge u v ∧ (u, v) ∉ closingPairs g.cycles) ∧
      (closingPairs g.cycles).Nodup := by
  obtain ⟨done, s, hc, ⟨ho, hs⟩, hf, hv, heq⟩ := cycles_induct
    (P := fun done s => Search.Ordered g done s ∧ Search.Sound g s) hg
    ⟨⟨trivial, trivial⟩, .nil, by simp, by simp, by simp [closingPairs], .nil⟩
    (fun hc h hf hv => ⟨h.1.push hf, h.2.push hc hf hv⟩)
    (fun hc h hs => ⟨h.1.step hc hs, h.2.step hg hc hs⟩)
  rw [heq]
  refine ⟨done, hc.nodup.of_append_right, ?_, ho.settled, ?_, hs.nodup⟩
  · intro u hu
    have := hc.mem_visited.mp (hv hu)
    simpa [hc.onPath_eq, hf] using this
  · exact fun p hp => ⟨hs.isCycle p hp, (hs.cycle_chain p hp).imp fun _ _ hk => ⟨hk.1.1, hk.2⟩⟩

/-- Where no cycles are found, each of some fields has a level below their number, and dependencies
between them lead to higher levels. -/
theorem exists_level (hg : g.WellFormed) (hnil : g.cycles = []) (names : List String) :
    ∃ level : String → ℕ, (∀ u ∈ names, level u < names.length) ∧
      ∀ u ∈ names, ∀ v, g.Edge u v → level u < level v := by
  obtain ⟨order, hn, hsub, hset, -, -⟩ := exists_search hg
  rw [hnil] at hset
  let before (u : String) : Finset String :=
    names.toFinset.filter fun w => order.idxOf w < order.idxOf u
  have hself : ∀ u, u ∉ before u := fun u hu => lt_irrefl _ (Finset.mem_filter.mp hu).2
  refine ⟨fun u => (before u).card, fun u hu => ?_, fun u hu v he => ?_⟩
  · have hss : before u ⊂ names.toFinset :=
      Finset.ssubset_iff_subset_ne.mpr ⟨Finset.filter_subset _ _, fun h =>
        hself u (h ▸ List.mem_toFinset.mpr hu)⟩
    exact (Finset.card_lt_card hss).trans_le (List.toFinset_card_le names)
  · have hlt := (hset.idxOf_lt hn (hsub (mem_nodes_of_edge he)) he (by simp [closingPairs])).2
    have hmem : u ∈ before v := Finset.mem_filter.mpr ⟨List.mem_toFinset.mpr hu, hlt⟩
    apply Finset.card_lt_card
    refine Finset.ssubset_iff_subset_ne.mpr ⟨fun w hw => ?_, fun h => hself u (h ▸ hmem)⟩
    obtain ⟨hw, hwu⟩ := Finset.mem_filter.mp hw
    exact Finset.mem_filter.mpr ⟨hw, hwu.trans hlt⟩

/-- Without the pairs that close the cycles that are found there are no cycles, and none are found
only where there are none. -/
theorem acyclic_without_closingPairs (rules : List Rule) :
    ((ofRules rules).without (closingPairs (ofRules rules).cycles)).Acyclic ∧
      ((ofRules rules).cycles = [] ↔ (ofRules rules).Acyclic) := by
  obtain ⟨order, hn, hsub, hset, hcycles, -⟩ := exists_search (wellFormed_ofRules rules)
  have hacyclic := hset.acyclic hn hsub
  refine ⟨hacyclic, fun hnil => ?_, fun ha => ?_⟩
  · rw [hnil] at hacyclic
    have hle : (ofRules rules).Edge ≤ ((ofRules rules).without (closingPairs [])).Edge :=
      fun u v huv => edge_without.mpr ⟨huv, by simp [closingPairs]⟩
    exact fun u hu => hacyclic u (Relation.TransGen.mono hle u u hu)
  · refine List.eq_nil_iff_forall_not_mem.mpr fun p hp => ?_
    exact (hcycles p hp).1.not_acyclic ha

end FieldRules.Dependency
