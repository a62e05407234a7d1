import FieldRules.Proofs.Dependency.Search
import Mathlib.Data.List.TakeWhile

/-! The cycles that are found and the pairs that close them: a cycle runs along pairs that close
none, and no pair closes two. -/
namespace FieldRules.Dependency

variable {g : Dependency} {done done' : List String} {s s' : Search} {u v x y : String}

/-- The pair at the end of a path, from its last field but one to its last. -/
def closingPair? (path : List String) : Option (String × String) := do
  let u ← path.dropLast.getLast?
  let v ← path.getLast?
  return (u, v)

/-- The pairs that close some paths. -/
def closingPairs (paths : List (List String)) : List (String × String) :=
  paths.filterMap closingPair?

theorem closingPair?_append (path : List String) (v : String) :
    closingPair? (path ++ [v]) = path.getLast?.map fun u => (u, v) := by
  simp only [closingPair?, List.dropLast_concat, List.getLast?_concat]
  cases path.getLast? <;> rfl

theorem closingPairs_append {path : List String} {e : String × String}
    (h : closingPair? path = some e) (paths : List (List String)) :
    closingPairs (paths ++ [path]) = closingPairs paths ++ [e] := by
  simp [closingPairs, h]

theorem eq_append_of_closingPair? {path : List String} (h : closingPair? path = some (u, v)) :
    ∃ p, path = p ++ [u, v] := by
  cases path using List.reverseRec with
  | nil => simp [closingPair?] at h
  | append_singleton path w =>
    rw [closingPair?_append, Option.map_eq_some_iff] at h
    obtain ⟨u', hu, hw⟩ := h
    cases hw
    obtain ⟨p, rfl⟩ := List.getLast?_eq_some_iff.mp hu
    exact ⟨p, by simp⟩

/-- A relation between all neighbours of a path is one between all before its end and one on the
pair that closes it. -/
theorem isChain_of_dropLast {R : String → String → Prop} {path : List String}
    (hdrop : path.dropLast.IsChain R) (hclose : ∀ u v, closingPair? path = some (u, v) → R u v) :
    path.IsChain R := by
  cases path using List.reverseRec with
  | nil => exact .nil
  | append_singleton path w =>
    rw [List.dropLast_concat] at hdrop
    refine hdrop.append (.singleton w) fun u hu v hv => hclose u v ?_
    cases hv
    rw [closingPair?_append, Option.mem_def.mp hu, Option.map_some]

/-- Where no pair closes two paths, the paths are told apart by their closing pairs. -/
theorem eq_of_closingPair?_eq {paths : List (List String)} {p q : List String}
    {e : String × String} (hn : (closingPairs paths).Nodup) (hp : p ∈ paths) (hq : q ∈ paths)
    (hpe : closingPair? p = some e) (hqe : closingPair? q = some e) : p = q := by
  induction paths with
  | nil => simp at hp
  | cons path paths ih =>
    have hsub : ∀ {r}, r ∈ paths → closingPair? r = some e → e ∈ closingPairs paths :=
      fun hr hre => List.mem_filterMap.mpr ⟨_, hr, hre⟩
    rcases List.mem_cons.mp hp with rfl | hp'
    · rcases List.mem_cons.mp hq with rfl | hq'
      · rfl
      · have hn' : (e :: closingPairs paths).Nodup := by simpa [closingPairs, hpe] using hn
        exact absurd (hsub hq' hqe) (List.nodup_cons.mp hn').1
    · rcases List.mem_cons.mp hq with rfl | hq'
      · have hn' : (e :: closingPairs paths).Nodup := by simpa [closingPairs, hqe] using hn
        exact absurd (hsub hp' hpe) (List.nodup_cons.mp hn').1
      · exact ih (((List.sublist_cons_self path paths).filterMap _).nodup hn) hp' hq'

namespace Search

/-- A pair that the search has looked at. -/
def Looked (g : Dependency) (s : Search) (u v : String) : Prop :=
  g.Edge u v ∧ u ∈ s.visited ∧ ∀ f ∈ s.frames, f.node = u → v ∉ f.left

/-- A pair that the search has looked at and that closed no cycle. -/
def Kept (g : Dependency) (s : Search) (u v : String) : Prop :=
  s.Looked g u v ∧ (u, v) ∉ closingPairs s.cycles

theorem Coherent.path_getLast? {vs : List String} {fs : List Frame} (h : Coherent g done s)
    (hf : s.frames = ⟨u, vs⟩ :: fs) : s.path.getLast? = some u := by
  simp [h.path_eq, hf]

/-- A cycle is an end of the path with its first field once more. -/
theorem Coherent.cycleTo_eq {vs : List String} {fs : List Frame} (h : Coherent g done s)
    (hf : s.frames = ⟨u, vs⟩ :: fs) (hv : v ∈ s.onPath) :
    ∃ q, s.cycleTo v = q ++ [v] ∧ q <:+ s.path ∧ q.head? = some v ∧ q.getLast? = some u := by
  have hne : s.path.dropWhile (· != v) ≠ [] := by
    intro he
    simpa using List.dropWhile_eq_nil_iff.mp he v (h.mem_path.mpr hv)
  refine ⟨s.path.dropWhile (· != v), rfl, List.dropWhile_suffix _, ?_, ?_⟩
  · have := List.head_dropWhile_not (· != v) hne
    rw [List.head?_eq_some_head hne]
    simpa using this
  · obtain ⟨p, hp⟩ := List.dropWhile_suffix (fun w => w != v) (l := s.path)
    have hlast := h.path_getLast? hf
    rwa [← hp, List.getLast?_append_of_ne_nil _ hne] at hlast

theorem Coherent.closingPair?_cycleTo {vs : List String} {fs : List Frame}
    (h : Coherent g done s) (hf : s.frames = ⟨u, vs⟩ :: fs) (hv : v ∈ s.onPath) :
    closingPair? (s.cycleTo v) = some (u, v) := by
  obtain ⟨q, hq, -, -, hlast⟩ := h.cycleTo_eq hf hv
  rw [hq, closingPair?_append, hlast, Option.map_some]

/-- Looking at a pair makes it one that has been looked at, and it was none before. -/
theorem Coherent.looked_advance {vs : List String} {fs : List Frame} (hg : g.WellFormed)
    (h : Coherent g done s) (hf : s.frames = ⟨u, v :: vs⟩ :: fs) :
    ¬ s.Looked g u v ∧ Looked g { s with frames := ⟨u, vs⟩ :: fs } u v := by
  have hmem : (⟨u, v :: vs⟩ : Frame) ∈ s.frames := by simp [hf]
  have hvs : v ∉ vs :=
    (List.nodup_cons.mp ((h.left_suffix _ hmem).sublist.nodup (hg.nodup_next u))).1
  have hnodes : u ∉ fs.map (·.node) := by
    have hn := h.nodup.of_append_left
    rw [h.onPath_eq, hf, List.map_cons] at hn
    exact (List.nodup_cons.mp hn).1
  have hu : u ∈ s.visited := h.mem_visited.mpr (Or.inl (by simp [h.onPath_eq, hf]))
  refine ⟨fun hl => hl.2.2 _ hmem rfl List.mem_cons_self, h.edge hmem List.mem_cons_self, hu, ?_⟩
  intro f hf' hfu
  rcases List.mem_cons.mp hf' with rfl | hf'
  · exact hvs
  · exact absurd (List.mem_map.mpr ⟨f, hf', hfu⟩) hnodes

theorem Looked.push (h : s.Looked g x y) (hv : v ∉ s.visited) : (s.push g v).Looked g x y := by
  refine ⟨h.1, List.mem_cons_of_mem v h.2.1, fun f hf hx => ?_⟩
  rcases List.mem_cons.mp hf with rfl | hf
  · cases hx
    exact absurd h.2.1 hv
  · exact h.2.2 f hf hx

theorem Looked.advance {vs : List String} {fs : List Frame} (h : s.Looked g x y)
    (hf : s.frames = ⟨u, v :: vs⟩ :: fs) :
    Looked g { s with frames := ⟨u, vs⟩ :: fs } x y := by
  refine ⟨h.1, h.2.1, fun f hf' hx => ?_⟩
  have hall := h.2.2
  rw [hf] at hall
  rcases List.mem_cons.mp hf' with rfl | hf'
  · exact fun hy => hall _ List.mem_cons_self hx (List.mem_cons_of_mem v hy)
  · exact hall f (List.mem_cons_of_mem _ hf') hx

theorem Looked.step (h : s.Looked g x y) (hs : Step g done s done' s') : s'.Looked g x y := by
  cases hs with
  | leave hf => exact ⟨h.1, h.2.1, fun f hf' => h.2.2 f (by simp [hf, hf'])⟩
  | close hf _ => exact h.advance hf
  | skip hf _ _ => exact h.advance hf
  | enter hf hv => exact (h.advance hf).push hv

/-- A pair that closed no cycle when it was looked at closes none later. -/
theorem Kept.step (hg : g.WellFormed) (hc : Coherent g done s) (h : s.Kept g x y)
    (hs : Step g done s done' s') : s'.Kept g x y := by
  refine ⟨h.1.step hs, ?_⟩
  cases hs with
  | @close u v vs fs hf hv =>
    rw [closingPairs_append (hc.closingPair?_cycleTo hf hv)]
    simp only [List.mem_append, List.mem_singleton, not_or]
    refine ⟨h.2, fun heq => ?_⟩
    cases heq
    exact (hc.looked_advance hg hf).1 h.1
  | _ => exact h.2

/-- The path and every cycle but for its closing pair run along pairs that closed no cycle, and no
pair closes two cycles. -/
structure Sound (g : Dependency) (s : Search) : Prop where
  path_chain : s.path.IsChain (s.Kept g)
  isCycle : ∀ p ∈ s.cycles, g.IsCycle p
  cycle_chain : ∀ p ∈ s.cycles, p.dropLast.IsChain (s.Kept g)
  looked : ∀ e ∈ closingPairs s.cycles, s.Looked g e.1 e.2
  nodup : (closingPairs s.cycles).Nodup

namespace Sound

theorem push (hc : Coherent g done s) (h : Sound g s) (hf : s.frames = []) (hv : u ∉ s.visited) :
    Sound g (s.push g u) where
  path_chain := by simp [Search.push, hc.path_eq, hf]
  isCycle := h.isCycle
  cycle_chain p hp := (h.cycle_chain p hp).imp fun _ _ hk => ⟨hk.1.push hv, hk.2⟩
  looked e he := (h.looked e he).push hv
  nodup := h.nodup

theorem isCycle_cycleTo {vs : List String} {fs : List Frame} (hc : Coherent g done s)
    (h : Sound g s) (hf : s.frames = ⟨u, v :: vs⟩ :: fs) (hv : v ∈ s.onPath) :
    g.IsCycle (s.cycleTo v) := by
  obtain ⟨q, hq, hsuf, hhead, hlast⟩ := hc.cycleTo_eq hf hv
  have he : g.Edge u v := hc.edge (f := ⟨u, v :: vs⟩) (by simp [hf]) List.mem_cons_self
  have hne : q ≠ [] := fun heq => by simp [heq] at hhead
  rw [hq]
  refine ⟨?_, ?_, ?_, ?_⟩
  · have := List.length_pos_of_ne_nil hne
    simp only [List.length_append, List.length_singleton]
    omega
  · refine ((h.path_chain.suffix hsuf).imp fun _ _ hk => hk.1.1).append (.singleton v) ?_
    simp only [hlast, Option.mem_some_iff, List.head?_cons]
    rintro _ rfl _ rfl
    exact he
  · rw [List.head?_append_of_ne_nil _ hne, hhead, List.getLast?_concat]
  · rw [List.dropLast_concat]
    exact hsuf.sublist.nodup hc.path_nodup

theorem step (hg : g.WellFormed) (hc : Coherent g done s) (h : Sound g s)
    (hs : Step g done s done' s') : Sound g s' := by
  have hkept : ∀ {x y}, s.Kept g x y → s'.Kept g x y := fun hk => hk.step hg hc hs
  have hlooked : ∀ {x y}, s.Looked g x y → s'.Looked g x y := fun hl => hl.step hs
  have hpath := h.path_chain.imp fun _ _ => hkept
  have hcycles : ∀ p ∈ s.cycles, p.dropLast.IsChain (s'.Kept g) :=
    fun p hp => (h.cycle_chain p hp).imp fun _ _ => hkept
  have hlook : ∀ e ∈ closingPairs s.cycles, s'.Looked g e.1 e.2 :=
    fun e he => hlooked (h.looked e he)
  cases hs with
  | leave hf => exact ⟨hpath.dropLast, h.isCycle, hcycles, hlook, h.nodup⟩
  | @close u v vs fs hf hv =>
    obtain ⟨hnew, hnow⟩ := hc.looked_advance hg hf
    obtain ⟨q, hq, hsuf, -, -⟩ := hc.cycleTo_eq hf hv
    have hpairs := closingPairs_append (hc.closingPair?_cycleTo hf hv) s.cycles
    refine ⟨hpath, ?_, ?_, ?_, ?_⟩
    · intro p hp
      rcases List.mem_append.mp hp with hp | hp
      · exact h.isCycle p hp
      · rw [List.mem_singleton.mp hp]
        exact h.isCycle_cycleTo hc hf hv
    · intro p hp
      rcases List.mem_append.mp hp with hp | hp
      · exact hcycles p hp
      · have hdrop : (s.cycleTo v).dropLast = q := by rw [hq, List.dropLast_concat]
        rw [List.mem_singleton.mp hp, hdrop]
        exact hpath.suffix hsuf
    · intro e he
      rw [hpairs] at he
      rcases List.mem_append.mp he with he | he
      · exact hlook e he
      · rw [List.mem_singleton.mp he]
        exact hnow
    · rw [hpairs]
      refine List.nodup_append.mpr ⟨h.nodup, by simp, ?_⟩
      rintro e he _ hmem rfl
      rw [List.mem_singleton.mp hmem] at he
      exact hnew (h.looked _ he)
  | skip hf _ _ => exact ⟨hpath, h.isCycle, hcycles, hlook, h.nodup⟩
  | @enter u v vs fs hf hv =>
    refine ⟨?_, h.isCycle, hcycles, hlook, h.nodup⟩
    obtain ⟨hnew, hnow⟩ := hc.looked_advance hg hf
    refine hpath.append (.singleton v) ?_
    rw [hc.path_getLast? hf]
    simp only [Option.mem_some_iff, List.head?_cons]
    rintro _ rfl _ rfl
    exact ⟨hnow.push hv, fun he => hnew (h.looked _ he)⟩

end Sound

end Search

end FieldRules.Dependency
