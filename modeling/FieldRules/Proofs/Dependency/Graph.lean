import FieldRules.Dependency
import Mathlib.Data.List.Chain
import Mathlib.Logic.Relation

/-! Dependencies as a graph: its pairs, its well-formedness, and the pairs that rules give it. -/
namespace FieldRules.Dependency

/-- The second field depends directly on the first. -/
def Edge (g : Dependency) (u v : String) : Prop :=
  v ∈ g.next u

instance (g : Dependency) (u v : String) : Decidable (g.Edge u v) :=
  inferInstanceAs (Decidable (v ∈ g.next u))

/-- No chain of dependencies leads from a field back to it. -/
def Acyclic (g : Dependency) : Prop :=
  ∀ u, ¬ Relation.TransGen g.Edge u u

/-- Fields of which each depends on the one before, the first one again at the end and none twice
otherwise. -/
structure IsCycle (g : Dependency) (path : List String) : Prop where
  two_le_length : 2 ≤ path.length
  chain : path.IsChain g.Edge
  closed : path.head? = path.getLast?
  nodup : path.dropLast.Nodup

theorem IsCycle.not_acyclic {g : Dependency} {path : List String} (h : g.IsCycle path) :
    ¬ g.Acyclic := by
  intro ha
  match path, h.two_le_length with
  | u :: v :: rest, _ =>
    obtain ⟨huv, hchain⟩ := List.isChain_cons_cons.mp h.chain
    have hlast : (v :: rest).getLast (by simp) = u := by
      have := h.closed
      rw [List.head?_cons, List.getLast?_cons_cons, List.getLast?_eq_some_getLast (by simp)] at this
      exact (Option.some.inj this).symm
    exact ha u (.head' huv (List.relationReflTransGen_of_exists_isChain_cons rest hchain hlast))

/-- The dependencies without some pairs. -/
def without (g : Dependency) (pairs : List (String × String)) : Dependency :=
  ⟨g.successors.map fun (u, next) => (u, next.filter fun v => (u, v) ∉ pairs)⟩

theorem next_without (g : Dependency) (pairs : List (String × String)) (u : String) :
    (g.without pairs).next u = (g.next u).filter fun v => (u, v) ∉ pairs := by
  obtain ⟨es⟩ := g
  unfold without next
  induction es with
  | nil => rfl
  | cons e es ih =>
    obtain ⟨k, next⟩ := e
    by_cases h : k = u
    · subst h; simp
    · simpa [h] using ih

@[simp] theorem edge_without {g : Dependency} {pairs : List (String × String)} {u v : String} :
    (g.without pairs).Edge u v ↔ g.Edge u v ∧ (u, v) ∉ pairs := by
  simp [Edge, next_without]

/-- Every field and every pair is listed once, and pairs lead to listed fields. -/
structure WellFormed (g : Dependency) : Prop where
  nodup_nodes : g.nodes.Nodup
  nodup_next : ∀ u, (g.next u).Nodup
  mem_nodes : ∀ {u v}, g.Edge u v → v ∈ g.nodes

theorem mem_nodes_of_edge {g : Dependency} {u v : String} (h : g.Edge u v) : u ∈ g.nodes := by
  rw [nodes, ← Entries.contains_iff]
  unfold Edge next at h
  cases hu : g.successors.get? u with
  | none => simp [hu] at h
  | some next => simp [Entries.contains, hu]

theorem nodes_addNode (g : Dependency) (u : String) :
    (g.addNode u).nodes = if u ∈ g.nodes then g.nodes else g.nodes ++ [u] := by
  unfold addNode nodes
  by_cases h : u ∈ g.successors.keys
  · simp [h, Entries.contains_iff]
  · simp [h, Entries.contains_iff, Entries.keys_insert]

@[simp] theorem next_addNode (g : Dependency) (u : String) : (g.addNode u).next = g.next := by
  funext w
  unfold addNode next
  split
  · rfl
  · rename_i h
    rw [Entries.get?_insert]
    split
    · rename_i hw
      subst hw
      cases hu : g.successors.get? u with
      | none => rfl
      | some next => simp [Entries.contains, hu] at h
    · rfl

theorem mem_nodes_addNode {g : Dependency} {u w : String} :
    w ∈ (g.addNode u).nodes ↔ w ∈ g.nodes ∨ w = u := by
  rw [nodes_addNode]
  split
  · exact ⟨Or.inl, fun h => h.elim id fun h => h ▸ ‹u ∈ g.nodes›⟩
  · simp

theorem WellFormed.addNode {g : Dependency} (hg : g.WellFormed) (u : String) :
    (g.addNode u).WellFormed where
  nodup_nodes := by
    rw [nodes_addNode]
    split
    · exact hg.nodup_nodes
    · exact List.nodup_append.mpr ⟨hg.nodup_nodes, by simp, by grind⟩
  nodup_next := by simpa using hg.nodup_next
  mem_nodes h := by
    rw [Edge, next_addNode] at h
    exact mem_nodes_addNode.mpr (Or.inl (hg.mem_nodes h))

theorem next_insert (g : Dependency) (u w : String) (next : List String) :
    Dependency.next ⟨g.successors.insert u next⟩ w = if w = u then next else g.next w := by
  by_cases h : w = u
  · simp [Dependency.next, Entries.get?_insert, h]
  · simp [Dependency.next, Entries.get?_insert, h, Ne.symm h]

/-- A new pair comes after those of the same field. -/
theorem next_addEdge (g : Dependency) (u v w : String) :
    (g.addEdge u v).next w =
      if w = u ∧ v ∉ g.next u then g.next u ++ [v] else g.next w := by
  unfold addEdge
  simp only [next_addNode]
  by_cases hv : v ∈ g.next u
  · simp [hv]
  · rw [if_neg hv, next_insert]
    simp [hv]

theorem edge_addEdge {g : Dependency} {u v x y : String} :
    (g.addEdge u v).Edge x y ↔ g.Edge x y ∨ (x = u ∧ y = v) := by
  unfold Edge
  rw [next_addEdge]
  split <;> grind

theorem nodes_addEdge (g : Dependency) (u v : String) :
    (g.addEdge u v).nodes = ((g.addNode u).addNode v).nodes := by
  unfold addEdge
  dsimp only
  split
  · rfl
  · have hu : u ∈ ((g.addNode u).addNode v).nodes :=
      mem_nodes_addNode.mpr (Or.inl (mem_nodes_addNode.mpr (Or.inr rfl)))
    unfold nodes at hu ⊢
    rw [Entries.keys_insert, if_pos hu]

theorem WellFormed.addEdge {g : Dependency} (hg : g.WellFormed) (u v : String) :
    (g.addEdge u v).WellFormed where
  nodup_nodes := by
    rw [nodes_addEdge]
    exact ((hg.addNode u).addNode v).nodup_nodes
  nodup_next w := by
    rw [next_addEdge]
    split
    · exact List.nodup_append.mpr ⟨hg.nodup_next u, by simp, by grind⟩
    · exact hg.nodup_next w
  mem_nodes h := by
    rw [nodes_addEdge, mem_nodes_addNode, mem_nodes_addNode]
    rcases edge_addEdge.mp h with h | ⟨-, rfl⟩
    · exact Or.inl (Or.inl (hg.mem_nodes h))
    · exact Or.inr rfl

theorem WellFormed.addCondition {g : Dependency} (hg : g.WellFormed) (targets : List Clause)
    (c : Clause) : (addCondition targets g c).WellFormed :=
  List.foldlRecOn _ _ (hg.addNode c.name) fun _ h t _ => h.addEdge c.name t.name

theorem WellFormed.addRule {g : Dependency} (hg : g.WellFormed) (r : Rule) :
    (g.addRule r).WellFormed :=
  List.foldlRecOn _ _ hg fun _ h c _ => h.addCondition r.targets c

theorem wellFormed_ofRules (rules : List Rule) : (ofRules rules).WellFormed :=
  List.foldlRecOn _ _ ⟨by simp [nodes, Entries.keys], by simp [next], by simp [Edge, next]⟩
    fun _ h r _ => h.addRule r

private theorem edge_foldl {α : Type} {step : Dependency → α → Dependency}
    (added : α → String → String → Prop)
    (hstep : ∀ g a u v, (step g a).Edge u v ↔ g.Edge u v ∨ added a u v)
    (g : Dependency) (as : List α) (u v : String) :
    (as.foldl step g).Edge u v ↔ g.Edge u v ∨ ∃ a ∈ as, added a u v := by
  induction as generalizing g with
  | nil => simp
  | cons a as ih => simp [ih, hstep, or_assoc]

theorem edge_addCondition (targets : List Clause) (g : Dependency) (c : Clause) (u v : String) :
    (addCondition targets g c).Edge u v ↔
      g.Edge u v ∨ (u = c.name ∧ ∃ t ∈ targets, t.name ≠ c.name ∧ v = t.name) := by
  unfold addCondition
  rw [edge_foldl (fun t x y => x = c.name ∧ y = t.name) fun _ _ _ _ => edge_addEdge]
  simp only [Edge, next_addNode, List.mem_filter, bne_iff_ne]
  grind

theorem edge_addRule (g : Dependency) (r : Rule) (u v : String) :
    (g.addRule r).Edge u v ↔ g.Edge u v ∨ ∃ c ∈ r.conditionList,
      u = c.name ∧ ∃ t ∈ r.targets, t.name ≠ c.name ∧ v = t.name :=
  edge_foldl _ (edge_addCondition r.targets) g r.conditionList u v

/-- Two fields make a pair when a rule has a condition on the one and a target on the other. -/
theorem edge_ofRules {rules : List Rule} {u v : String} :
    (ofRules rules).Edge u v ↔ ∃ r ∈ rules, ∃ c ∈ r.conditionList,
      u = c.name ∧ ∃ t ∈ r.targets, t.name ≠ c.name ∧ v = t.name := by
  unfold ofRules
  rw [edge_foldl _ edge_addRule]
  simp [Edge, next]

end FieldRules.Dependency
