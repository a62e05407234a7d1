import FieldRules.Dependency.Cycles
import FieldRules.Proofs.Dependency.Graph
import Mathlib.Algebra.GroupWithZero.Nat
import Mathlib.Algebra.Order.BigOperators.Group.Finset

/-! The search for cycles as a machine: its steps, what its parts have in common throughout, and
its end, at which every field has been visited. -/
namespace FieldRules.Dependency

open scoped BigOperators

namespace Search

variable {g : Dependency} {done done' : List String} {s s' : Search} {u v : String}

/-- A step of a search together with the fields that have left the path, the last one first. -/
inductive Step (g : Dependency) (done : List String) (s : Search) : List String → Search → Prop
  | leave {u fs} (hf : s.frames = ⟨u, []⟩ :: fs) :
      Step g done s (u :: done)
        { s with path := s.path.dropLast, frames := fs, onPath := s.onPath.erase u }
  | close {u v vs fs} (hf : s.frames = ⟨u, v :: vs⟩ :: fs) (hv : v ∈ s.onPath) :
      Step g done s done { s with frames := ⟨u, vs⟩ :: fs, cycles := s.cycles ++ [s.cycleTo v] }
  | skip {u v vs fs} (hf : s.frames = ⟨u, v :: vs⟩ :: fs) (hp : v ∉ s.onPath)
      (hv : v ∈ s.visited) : Step g done s done { s with frames := ⟨u, vs⟩ :: fs }
  | enter {u v vs fs} (hf : s.frames = ⟨u, v :: vs⟩ :: fs) (hv : v ∉ s.visited) :
      Step g done s done (push g { s with frames := ⟨u, vs⟩ :: fs } v)

theorem exists_step {m : Move} (g : Dependency) (done : List String) (h : s.move? = some m) :
    ∃ done', Step g done s done' (s.after g m) := by
  unfold move? at h
  split at h
  · cases h
  · rename_i u fs hf
    cases h
    exact ⟨u :: done, by simpa [after, hf] using Step.leave hf⟩
  · rename_i u v vs fs hf
    refine ⟨done, ?_⟩
    split_ifs at h with hp hv <;> cases h
    · simpa [after, advance, hf] using Step.close hf hp
    · simpa [after, advance, hf] using Step.skip hf hp hv
    · simpa [after, advance, hf] using Step.enter hf hv

theorem Step.visited_subset (h : Step g done s done' s') : s.visited ⊆ s'.visited := by
  cases h with
  | enter => exact List.subset_cons_self _ _
  | _ => exact List.Subset.refl _

theorem move?_eq_none (h : s.move? = none) : s.frames = [] := by
  unfold move? at h
  split at h
  · assumption
  · cases h
  · split_ifs at h

/-- The path, the frames and the fields on the path are one stack. What has been visited is on it
or has left it, and what is left of a frame is an end of the fields after it. -/
structure Coherent (g : Dependency) (done : List String) (s : Search) : Prop where
  path_eq : s.path = (s.frames.map (·.node)).reverse
  onPath_eq : s.onPath = s.frames.map (·.node)
  visited_perm : s.visited.Perm (s.onPath ++ done)
  visited_nodup : s.visited.Nodup
  left_suffix : ∀ f ∈ s.frames, f.left <:+ g.next f.node

namespace Coherent

theorem mem_visited (h : Coherent g done s) : u ∈ s.visited ↔ u ∈ s.onPath ∨ u ∈ done := by
  rw [h.visited_perm.mem_iff, List.mem_append]

theorem nodup (h : Coherent g done s) : (s.onPath ++ done).Nodup :=
  h.visited_perm.nodup_iff.mp h.visited_nodup

theorem path_nodup (h : Coherent g done s) : s.path.Nodup := by
  rw [h.path_eq, List.nodup_reverse, ← h.onPath_eq]
  exact h.nodup.of_append_left

theorem mem_path (h : Coherent g done s) : u ∈ s.path ↔ u ∈ s.onPath := by
  rw [h.path_eq, h.onPath_eq, List.mem_reverse]

theorem edge {f : Frame} (h : Coherent g done s) (hf : f ∈ s.frames) (hv : v ∈ f.left) :
    g.Edge f.node v :=
  (h.left_suffix f hf).subset hv

theorem empty (g : Dependency) : Coherent g [] {} :=
  ⟨rfl, rfl, .refl _, .nil, by simp⟩

theorem push (h : Coherent g done s) (hv : v ∉ s.visited) : Coherent g done (s.push g v) where
  path_eq := by simp [Search.push, h.path_eq]
  onPath_eq := by simp [Search.push, h.onPath_eq]
  visited_perm := h.visited_perm.cons v
  visited_nodup := List.nodup_cons.mpr ⟨hv, h.visited_nodup⟩
  left_suffix := by
    intro f hf
    rcases List.mem_cons.mp hf with rfl | hf
    · exact List.suffix_refl _
    · exact h.left_suffix f hf

/-- Looking at one more field after a frame changes nothing else. -/
theorem advance {vs : List String} {fs : List Frame} (h : Coherent g done s)
    (hf : s.frames = ⟨u, v :: vs⟩ :: fs) :
    Coherent g done { s with frames := ⟨u, vs⟩ :: fs } where
  path_eq := by simp [h.path_eq, hf]
  onPath_eq := by simp [h.onPath_eq, hf]
  visited_perm := h.visited_perm
  visited_nodup := h.visited_nodup
  left_suffix := by
    have hs := h.left_suffix
    simp only [hf, List.forall_mem_cons] at hs
    exact List.forall_mem_cons.mpr ⟨(List.suffix_cons v vs).trans hs.1, hs.2⟩

theorem step (h : Coherent g done s) (hs : Step g done s done' s') : Coherent g done' s' := by
  cases hs with
  | @leave u fs hf =>
    have hp := h.onPath_eq
    rw [hf, List.map_cons] at hp
    refine ⟨?_, ?_, ?_, h.visited_nodup, ?_⟩
    · simp [h.path_eq, hf]
    · simp [hp]
    · refine h.visited_perm.trans ?_
      simpa [hp] using List.perm_middle.symm
    · intro f hmem
      exact h.left_suffix f (by simp [hf, hmem])
  | close hf _ =>
    have ha := h.advance hf
    exact ⟨ha.path_eq, ha.onPath_eq, ha.visited_perm, ha.visited_nodup, ha.left_suffix⟩
  | skip hf _ _ => exact h.advance hf
  | enter hf hv => exact (h.advance hf).push hv

end Coherent

/-- The moves that a search can still make: one for each field that it has to leave, and one for
each pair that it has to look at. -/
def work (g : Dependency) (s : Search) : ℕ :=
  (s.frames.map fun f => f.left.length + 1).sum +
    ∑ u ∈ g.nodes.toFinset \ s.visited.toFinset, ((g.next u).length + 1)

theorem work_push (hv : v ∉ s.visited) (hn : v ∈ g.nodes) : work g (s.push g v) = work g s := by
  have hmem : v ∈ g.nodes.toFinset \ s.visited.toFinset := by simp [hv, hn]
  have hrest : g.nodes.toFinset \ (v :: s.visited).toFinset =
      (g.nodes.toFinset \ s.visited.toFinset).erase v := by
    rw [List.toFinset_cons, Finset.sdiff_insert]
  unfold work push
  rw [← Finset.add_sum_erase _ _ hmem, hrest]
  simp only [List.map_cons, List.sum_cons]
  omega

theorem work_step (hg : g.WellFormed) (h : Coherent g done s) (hs : Step g done s done' s') :
    work g s' < work g s := by
  cases hs with
  | leave hf => simp [work, hf]
  | close hf _ => simp [work, hf]
  | skip hf _ _ => simp [work, hf]
  | @enter u v vs fs hf hv =>
    have he : g.Edge u v := h.edge (f := ⟨u, v :: vs⟩) (by simp [hf]) (by simp)
    have hw := work_push (s := { s with frames := ⟨u, vs⟩ :: fs }) hv (hg.mem_nodes he)
    rw [hw]
    simp [work, hf]

variable {P : List String → Search → Prop}

/-- What the steps keep holds when the search from a root has come to its end. -/
theorem advanceBy_induct (hg : g.WellFormed)
    (hstep : ∀ {done s done' s'}, Coherent g done s → P done s → Step g done s done' s' →
      P done' s')
    (n : ℕ) (hw : work g s ≤ n) (hc : Coherent g done s) (hp : P done s) :
    ∃ done', Coherent g done' (advanceBy g n s) ∧ P done' (advanceBy g n s) ∧
      (advanceBy g n s).frames = [] ∧ s.visited ⊆ (advanceBy g n s).visited := by
  induction n generalizing done s with
  | zero =>
    refine ⟨done, hc, hp, ?_, List.Subset.refl _⟩
    have hz : work g s = 0 := by omega
    cases hf : s.frames with
    | nil => simpa [advanceBy] using hf
    | cons f fs => simp [work, hf] at hz
  | succ n ih =>
    unfold advanceBy
    cases hm : s.move? with
    | none => exact ⟨done, hc, hp, move?_eq_none hm, List.Subset.refl _⟩
    | some m =>
      obtain ⟨done', hs⟩ := exists_step g done hm
      have hlt := work_step hg hc hs
      obtain ⟨done'', hc', hp', hf, hsub⟩ := ih (by omega) (hc.step hs) (hstep hc hp hs)
      exact ⟨done'', hc', hp', hf, List.Subset.trans hs.visited_subset hsub⟩

end Search

theorem next_of_mem {g : Dependency} (hg : g.WellFormed) {e : String × List String}
    (he : e ∈ g.successors) : g.next e.1 = e.2 := by
  rw [next, Entries.get?_eq_some hg.nodup_nodes he]
  rfl

theorem edges_eq {g : Dependency} (hg : g.WellFormed) :
    g.edges = g.nodes.flatMap fun u => (g.next u).map fun v => (u, v) := by
  rw [edges, nodes, Entries.keys, List.flatMap_map]
  exact List.flatMap_congr fun e he => by rw [next_of_mem hg he]

theorem length_edges {g : Dependency} (hg : g.WellFormed) :
    g.edges.length = ∑ u ∈ g.nodes.toFinset, (g.next u).length := by
  rw [List.sum_toFinset _ hg.nodup_nodes, edges_eq hg, List.length_flatMap]
  simp

theorem size_eq {g : Dependency} (hg : g.WellFormed) :
    g.size = ∑ u ∈ g.nodes.toFinset, ((g.next u).length + 1) := by
  rw [size, length_edges hg, Finset.sum_add_distrib, ← Finset.card_eq_sum_ones,
    List.toFinset_card_of_nodup hg.nodup_nodes, add_comm]

theorem work_le_size {g : Dependency} (hg : g.WellFormed) {s : Search} (hf : s.frames = []) :
    s.work g ≤ g.size := by
  rw [Search.work, hf, size_eq hg]
  simpa using Finset.sum_le_sum_of_subset Finset.sdiff_subset

variable {g : Dependency} {P : List String → Search → Prop}

/-- One root: what the steps and a first push keep holds afterwards, and the root is visited. -/
theorem searchFrom_induct (hg : g.WellFormed)
    (hpush : ∀ {done s u}, Search.Coherent g done s → P done s → s.frames = [] →
      u ∉ s.visited → P done (s.push g u))
    (hstep : ∀ {done s done' s'}, Search.Coherent g done s → P done s →
      Search.Step g done s done' s' → P done' s')
    {done : List String} {s : Search} {root : String} (hr : root ∈ g.nodes)
    (hc : Search.Coherent g done s) (hp : P done s) (hf : s.frames = []) :
    ∃ done', Search.Coherent g done' (searchFrom g s root) ∧ P done' (searchFrom g s root) ∧
      (searchFrom g s root).frames = [] ∧ s.visited ⊆ (searchFrom g s root).visited ∧
      root ∈ (searchFrom g s root).visited := by
  unfold searchFrom
  split
  · rename_i hv
    exact ⟨done, hc, hp, hf, List.Subset.refl _, hv⟩
  · rename_i hv
    have hw : (s.push g root).work g ≤ g.size := by
      rw [Search.work_push hv hr]
      exact work_le_size hg hf
    obtain ⟨done', hc', hp', hf', hsub⟩ :=
      Search.advanceBy_induct hg hstep g.size hw (hc.push hv) (hpush hc hp hf hv)
    exact ⟨done', hc', hp', hf', fun u hu => hsub (List.mem_cons_of_mem root hu),
      hsub List.mem_cons_self⟩

/-- The whole search: what its steps and its roots keep holds at its end, when nothing is on the
path and every field has been visited. -/
theorem cycles_induct (hg : g.WellFormed) (hempty : P [] {})
    (hpush : ∀ {done s u}, Search.Coherent g done s → P done s → s.frames = [] →
      u ∉ s.visited → P done (s.push g u))
    (hstep : ∀ {done s done' s'}, Search.Coherent g done s → P done s →
      Search.Step g done s done' s' → P done' s') :
    ∃ done s, Search.Coherent g done s ∧ P done s ∧ s.frames = [] ∧ g.nodes ⊆ s.visited ∧
      g.cycles = s.cycles := by
  suffices h : ∀ (roots : List String) (done : List String) (s : Search), roots ⊆ g.nodes →
      Search.Coherent g done s → P done s → s.frames = [] →
      ∃ done', Search.Coherent g done' (roots.foldl (searchFrom g) s) ∧
        P done' (roots.foldl (searchFrom g) s) ∧ (roots.foldl (searchFrom g) s).frames = [] ∧
        s.visited ⊆ (roots.foldl (searchFrom g) s).visited ∧
        roots ⊆ (roots.foldl (searchFrom g) s).visited by
    obtain ⟨done, hc, hp, hf, -, hv⟩ :=
      h g.nodes [] {} (List.Subset.refl _) (Search.Coherent.empty g) hempty rfl
    exact ⟨done, _, hc, hp, hf, hv, rfl⟩
  intro roots
  induction roots with
  | nil => exact fun done s _ hc hp hf => ⟨done, hc, hp, hf, List.Subset.refl _, by simp⟩
  | cons root roots ih =>
    intro done s hsub hc hp hf
    obtain ⟨hr, hrs⟩ := List.cons_subset.mp hsub
    obtain ⟨done', hc', hp', hf', hv, hroot⟩ := searchFrom_induct hg hpush hstep hr hc hp hf
    obtain ⟨done'', hc'', hp'', hf'', hv', hroots⟩ := ih done' _ hrs hc' hp' hf'
    exact ⟨done'', hc'', hp'', hf'', List.Subset.trans hv hv',
      List.cons_subset.mpr ⟨hv' hroot, hroots⟩⟩

end FieldRules.Dependency
