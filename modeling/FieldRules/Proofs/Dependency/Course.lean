import FieldRules.Proofs.Dependency.Closing

/-! The course of the search for cycles, event by event. Its path, its frames and its sets agree in
every pass, each of its loops comes to an end, and over the whole course every field enters the path
once and every pair is looked at once. -/
namespace FieldRules.Dependency

open scoped List

namespace Search

/-- What happens in a search, after the state in which it happens. -/
inductive Event
  /-- A root is put on the path. -/
  | start (before : Search) (root : String)
  /-- A pass of the loop makes a move. -/
  | pass (before : Search) (move : Move)
  deriving DecidableEq

namespace Event

/-- The field that is put on the path. -/
def entered? : Event → Option String
  | .start _ root => some root
  | .pass _ (.enter _ v) => some v
  | .pass _ _ => none

/-- The pair that is looked at. -/
def looked? : Event → Option (String × String)
  | .pass _ (.close u v) => some (u, v)
  | .pass _ (.skip u v) => some (u, v)
  | .pass _ (.enter u v) => some (u, v)
  | _ => none

/-- The cycle that is found. -/
def found? : Event → Option (List String)
  | .pass s (.close _ v) => some (s.cycleTo v)
  | _ => none

end Event

/-- The passes of a loop, of which at most so many are made. -/
def passes (g : Dependency) : ℕ → Search → List Event
  | 0, _ => []
  | n + 1, s =>
    match s.move? with
    | none => []
    | some m => .pass s m :: passes g n (s.after g m)

end Search

/-- The events of the search from one root after another. -/
def eventsFrom (g : Dependency) : Search → List String → List Search.Event
  | _, [] => []
  | s, root :: roots =>
    (if root ∈ s.visited then [] else .start s root :: Search.passes g g.size (s.push g root)) ++
      eventsFrom g (searchFrom g s root) roots

/-- The events of the whole search. -/
def events (g : Dependency) : List Search.Event :=
  eventsFrom g {} g.nodes

namespace Search

variable {g : Dependency} {done : List String} {t t' t'' : Search} {es es' : List Event}
  {m : Move} {root : String}

/-- The path is that of the frames and passes through no field twice. The fields on it are those
that count as on it, and all of them have been visited. -/
structure Aligned (s : Search) : Prop where
  path_eq : s.path = (s.frames.map (·.node)).reverse
  path_nodup : s.path.Nodup
  mem_onPath : ∀ u, u ∈ s.onPath ↔ u ∈ s.path
  path_subset : s.path ⊆ s.visited

/-- A move can be made: a field that leaves is the last one of the path and of the frames, and a
pair that leads back leads to a field of the path. -/
def Possible (s : Search) : Move → Prop
  | .leave u => s.path.getLast? = some u ∧ s.frames.head? = some ⟨u, []⟩
  | .close _ v => v ∈ s.path
  | _ => True

theorem Coherent.aligned (h : Coherent g done t) : t.Aligned where
  path_eq := h.path_eq
  path_nodup := h.path_nodup
  mem_onPath _ := h.mem_path.symm
  path_subset _ hu := h.mem_visited.mpr (.inl (h.mem_path.mp hu))

/-- What a move says about the state in which it is made. -/
inductive Makes (s : Search) : Move → Prop
  | leave {u fs} (hf : s.frames = ⟨u, []⟩ :: fs) : Makes s (.leave u)
  | close {u v vs fs} (hf : s.frames = ⟨u, v :: vs⟩ :: fs) (hv : v ∈ s.onPath) :
      Makes s (.close u v)
  | skip {u v vs fs} (hf : s.frames = ⟨u, v :: vs⟩ :: fs) : Makes s (.skip u v)
  | enter {u v vs fs} (hf : s.frames = ⟨u, v :: vs⟩ :: fs) : Makes s (.enter u v)

theorem makes_of_move? (h : t.move? = some m) : Makes t m := by
  unfold move? at h
  split at h
  · cases h
  · rename_i u fs hf
    cases h
    exact .leave hf
  · rename_i u v vs fs hf
    split_ifs at h with hp hv <;> cases h
    · exact .close hf hp
    · exact .skip hf
    · exact .enter hf

theorem Coherent.possible (h : Coherent g done t) (hm : t.move? = some m) : t.Possible m := by
  cases makes_of_move? hm with
  | leave hf => exact ⟨h.path_getLast? hf, by rw [hf, List.head?_cons]⟩
  | close hf hv => exact h.mem_path.mpr hv
  | skip hf => trivial
  | enter hf => trivial

/-- Events lead from one state to another. No loop is begun before the one before it has ended, and
each comes to its end. -/
inductive Leads (g : Dependency) : Search → List Event → Search → Prop
  | refl (s : Search) : Leads g s [] s
  | start {s root es s'} (hr : root ∈ g.nodes) (hv : root ∉ s.visited) (hf : s.frames = [])
      (hend : (searchFrom g s root).frames = []) (h : Leads g (s.push g root) es s') :
      Leads g s (.start s root :: es) s'
  | pass {s m es s'} (hm : s.move? = some m) (h : Leads g (s.after g m) es s') :
      Leads g s (.pass s m :: es) s'

namespace Leads

theorem append (h : Leads g t es t') (h' : Leads g t' es' t'') : Leads g t (es ++ es') t'' := by
  induction h with
  | refl => exact h'
  | start hr hv hf hend _ ih => exact .start hr hv hf hend (ih h')
  | pass hm _ ih => exact .pass hm (ih h')

theorem ended (h : Leads g t es t') (he : .start t'' root ∈ es) :
    t''.frames = [] ∧ (searchFrom g t'' root).frames = [] := by
  induction h with
  | refl => cases he
  | start hr hv hf hend _ ih =>
    rcases List.mem_cons.mp he with heq | he
    · cases heq
      exact ⟨hf, hend⟩
    · exact ih he
  | pass hm _ ih =>
    rcases List.mem_cons.mp he with heq | he
    · cases heq
    · exact ih he

theorem sound (h : Leads g t es t') (hc : Coherent g done t) (he : .pass t'' m ∈ es) :
    t''.Aligned ∧ t''.Possible m := by
  induction h generalizing done with
  | refl => cases he
  | start hr hv hf hend _ ih =>
    rcases List.mem_cons.mp he with heq | he
    · cases heq
    · exact ih (hc.push hv) he
  | pass hm _ ih =>
    rcases List.mem_cons.mp he with heq | he
    · cases heq
      exact ⟨hc.aligned, hc.possible hm⟩
    · obtain ⟨done', hs⟩ := exists_step g done hm
      exact ih (hc.step hs) he

/-- Every field that enters the path is visited then and only then. -/
theorem visited_eq (h : Leads g t es t') :
    t'.visited = (es.filterMap Event.entered?).reverse ++ t.visited := by
  induction h with
  | refl => rfl
  | start hr hv hf hend _ ih => simp [ih, Event.entered?, push]
  | pass hm _ ih =>
    cases makes_of_move? hm <;> simp [ih, List.filterMap_cons, Event.entered?, after, push]

theorem entered_subset (hg : g.WellFormed) (h : Leads g t es t') (hc : Coherent g done t) :
    es.filterMap Event.entered? ⊆ g.nodes := by
  induction h generalizing done with
  | refl => simp
  | start hr hv hf hend _ ih => simpa [Event.entered?] using ⟨hr, ih (hc.push hv)⟩
  | pass hm _ ih =>
    obtain ⟨done', hs⟩ := exists_step g done hm
    have hrest := ih (hc.step hs)
    cases makes_of_move? hm with
    | @enter u v vs fs hf =>
      have he : g.Edge u v := hc.edge (f := ⟨u, v :: vs⟩) (by simp [hf]) List.mem_cons_self
      simpa [List.filterMap_cons, Event.entered?] using ⟨hg.mem_nodes he, hrest⟩
    | _ => simpa [List.filterMap_cons, Event.entered?] using hrest

theorem cycles_eq (h : Leads g t es t') :
    t'.cycles = t.cycles ++ es.filterMap Event.found? := by
  induction h with
  | refl => simp
  | start hr hv hf hend _ ih => simp [ih, List.filterMap_cons, Event.found?, push]
  | pass hm _ ih =>
    cases makes_of_move? hm <;> simp [ih, List.filterMap_cons, Event.found?, after, push]

end Leads

/-- The pairs of a field and those after it. -/
def pairsFrom (g : Dependency) (u : String) : List (String × String) :=
  (g.next u).map fun v => (u, v)

/-- The pairs that the frames have not looked at. -/
def pending (s : Search) : List (String × String) :=
  s.frames.flatMap fun f => f.left.map fun v => (f.node, v)

/-- A pair is pending from when its field enters the path until it is looked at. -/
theorem Leads.looked_perm (h : Leads g t es t') :
    (es.filterMap Event.looked? ++ t'.pending).Perm
      (t.pending ++ (es.filterMap Event.entered?).flatMap (pairsFrom g)) := by
  induction h with
  | refl => simp
  | @start s root es s' hr hv hf hend _ ih =>
    have hpush : (s.push g root).pending = pairsFrom g root ++ s.pending := rfl
    rw [hpush] at ih
    calc (es.filterMap Event.looked? ++ s'.pending)
        ~ pairsFrom g root ++ s.pending ++
          (es.filterMap Event.entered?).flatMap (pairsFrom g) := ih
      _ ~ s.pending ++ (pairsFrom g root ++
          (es.filterMap Event.entered?).flatMap (pairsFrom g)) := by
        rw [← List.append_assoc]
        exact List.perm_append_comm.append_right _
  | @pass s m es s' hm _ ih =>
    cases makes_of_move? hm with
    | @leave u fs hf =>
      have hafter : (s.after g (.leave u)).pending = s.pending := by
        simp [after, pending, hf]
      simpa [List.filterMap_cons, Event.looked?, Event.entered?, hafter] using ih
    | @close u v vs fs hf hv =>
      have hafter : s.pending = (u, v) :: (s.after g (.close u v)).pending := by
        simp [after, advance, pending, hf]
      simpa [List.filterMap_cons, Event.looked?, Event.entered?, hafter] using ih
    | @skip u v vs fs hf =>
      have hafter : s.pending = (u, v) :: (s.after g (.skip u v)).pending := by
        simp [after, advance, pending, hf]
      simpa [List.filterMap_cons, Event.looked?, Event.entered?, hafter] using ih
    | @enter u v vs fs hf =>
      have hafter : (u, v) :: (s.after g (.enter u v)).pending ~ s.pending ++ pairsFrom g v := by
        have heq : (u, v) :: (s.after g (.enter u v)).pending =
            (u, v) :: (pairsFrom g v ++ pending { s with frames := ⟨u, vs⟩ :: fs }) := by
          simp [after, advance, push, pending, pairsFrom, hf]
        have hpending : s.pending = (u, v) :: pending { s with frames := ⟨u, vs⟩ :: fs } := by
          simp [pending, hf]
        rw [heq, hpending, List.cons_append]
        exact List.perm_append_comm.cons _
      calc ((Event.pass s (.enter u v) :: es).filterMap Event.looked? ++ s'.pending)
          = (u, v) :: (es.filterMap Event.looked? ++ s'.pending) := rfl
        _ ~ (u, v) :: (s.after g (.enter u v)).pending ++
            (es.filterMap Event.entered?).flatMap (pairsFrom g) := ih.cons _
        _ ~ s.pending ++ pairsFrom g v ++
            (es.filterMap Event.entered?).flatMap (pairsFrom g) := hafter.append_right _
        _ = s.pending ++ (pairsFrom g v ++
            (es.filterMap Event.entered?).flatMap (pairsFrom g)) := List.append_assoc _ _ _

theorem leads_passes (g : Dependency) (n : ℕ) (t : Search) :
    Leads g t (passes g n t) (advanceBy g n t) := by
  induction n generalizing t with
  | zero => exact .refl t
  | succ n ih =>
    rw [passes, advanceBy]
    cases hm : t.move? with
    | none => exact .refl t
    | some m => exact .pass hm (ih (t.after g m))

end Search

open Search

variable {g : Dependency}

theorem nodup_edges (hg : g.WellFormed) : g.edges.Nodup := by
  rw [edges_eq hg, List.nodup_flatMap]
  refine ⟨fun u _ => (hg.nodup_next u).map fun _ _ h => (Prod.mk.inj h).2, ?_⟩
  refine hg.nodup_nodes.imp fun {u w} hne e hu hw => hne ?_
  obtain ⟨_, -, rfl⟩ := List.mem_map.mp hu
  obtain ⟨_, -, heq⟩ := List.mem_map.mp hw
  exact (Prod.mk.inj heq).1.symm

/-- The events of a search lead to its end, where no frame is left and all roots are visited. -/
theorem leads_eventsFrom (hg : g.WellFormed) {roots : List String} (hr : roots ⊆ g.nodes)
    {done : List String} {s : Search} (hc : Coherent g done s) (hf : s.frames = []) :
    ∃ done', Leads g s (g.eventsFrom s roots) (roots.foldl (searchFrom g) s) ∧
      Coherent g done' (roots.foldl (searchFrom g) s) ∧
      (roots.foldl (searchFrom g) s).frames = [] ∧
      s.visited ++ roots ⊆ (roots.foldl (searchFrom g) s).visited := by
  induction roots generalizing done s with
  | nil => exact ⟨done, .refl s, hc, hf, by simp⟩
  | cons root roots ih =>
    obtain ⟨hroot, hroots⟩ := List.cons_subset.mp hr
    obtain ⟨done₁, hc₁, -, hf₁, hsub₁, hvisited⟩ := searchFrom_induct (P := fun _ _ => True) hg
      (fun _ _ _ _ => trivial) (fun _ _ _ => trivial) hroot hc trivial hf
    obtain ⟨done₂, hleads, hc₂, hf₂, hsub₂⟩ := ih hroots hc₁ hf₁
    rw [List.foldl_cons, eventsFrom]
    refine ⟨done₂, .append ?_ hleads, hc₂, hf₂, ?_⟩
    · by_cases hv : root ∈ s.visited
      · have hsame : searchFrom g s root = s := if_pos hv
        rw [if_pos hv, hsame]
        exact .refl s
      · have hsame : searchFrom g s root = advanceBy g g.size (s.push g root) := if_neg hv
        rw [if_neg hv]
        refine .start hroot hv hf hf₁ ?_
        rw [hsame]
        exact leads_passes g g.size (s.push g root)
    · intro u hu
      refine hsub₂ (List.mem_append.mpr ?_)
      rcases List.mem_append.mp hu with hu | hu
      · exact .inl (hsub₁ hu)
      · rcases List.mem_cons.mp hu with rfl | hu
        · exact .inl hvisited
        · exact .inr hu

/-- In every pass of the search the path is that of the frames, without a field twice, the fields on
it are those that count as on it, and all have been visited. So a pair that leads back finds its
field on the path, and nothing leaves an empty one. Every loop ends: no frame is left when a root is
put on the path, nor when the search from it is over. Over the whole course every field enters the
path once and every pair is looked at once, and the cycles are those that its passes find. -/
theorem course_aligned (hg : g.WellFormed) :
    (∀ s m, .pass s m ∈ g.events → s.Aligned ∧ s.Possible m) ∧
    (∀ s root, .start s root ∈ g.events → s.frames = [] ∧ (searchFrom g s root).frames = []) ∧
    (g.events.filterMap Event.entered?).Nodup ∧ g.events.filterMap Event.entered? ~ g.nodes ∧
    (g.events.filterMap Event.looked?).Nodup ∧ g.events.filterMap Event.looked? ~ g.edges ∧
    g.cycles = g.events.filterMap Event.found? := by
  have hempty := Coherent.empty g
  obtain ⟨done, hleads, hc, hf, hsub⟩ :=
    leads_eventsFrom hg (List.Subset.refl g.nodes) hempty rfl
  have hvisited := hleads.visited_eq
  rw [List.append_nil] at hvisited
  have hnodup : (g.events.filterMap Event.entered?).Nodup :=
    List.nodup_reverse.mp (hvisited ▸ hc.visited_nodup)
  have hentered : g.events.filterMap Event.entered? ~ g.nodes := by
    refine (List.perm_ext_iff_of_nodup hnodup hg.nodup_nodes).mpr fun u => ?_
    refine ⟨fun hu => hleads.entered_subset hg hempty hu, fun hu => ?_⟩
    exact List.mem_reverse.mp (hvisited ▸ hsub (List.mem_append_right _ hu))
  have hlooked : g.events.filterMap Event.looked? ~ g.edges := by
    have hperm := hleads.looked_perm
    rw [pending, hf, List.flatMap_nil, List.append_nil] at hperm
    rw [edges_eq hg]
    exact hperm.trans (hentered.flatMap_right _)
  exact ⟨fun s m he => hleads.sound hempty he, fun s root he => hleads.ended he, hnodup, hentered,
    hlooked.nodup_iff.mpr (nodup_edges hg), hlooked, hleads.cycles_eq⟩

/-- Four fields. One depends on itself, and one is reached from two roots. -/
def trellis : Dependency :=
  ⟨[("a", ["b", "a"]), ("b", ["c", "a"]), ("c", []), ("d", ["c"])]⟩

theorem wellFormed_trellis : trellis.WellFormed where
  nodup_nodes := by decide
  nodup_next u := by
    simp only [next, trellis, Entries.get?]
    split_ifs <;> decide
  mem_nodes {u v} h := by
    simp only [Edge, next, trellis, Entries.get?] at h
    split_ifs at h <;> revert v <;> decide

/-- The field `c` enters the path from the first root, and the pair that leads to it from the second
is looked at all the same. -/
theorem trellis_aligned :
    trellis.WellFormed ∧
    trellis.events.filterMap Event.entered? = ["a", "b", "c", "d"] ∧
    trellis.events.filterMap Event.looked? =
      [("a", "b"), ("b", "c"), ("b", "a"), ("a", "a"), ("d", "c")] ∧
    (trellis.events.filterMap Event.looked?).Nodup ∧
    (trellis.events.filterMap Event.looked? ~ trellis.edges) ∧
    trellis.cycles = [["a", "b", "a"], ["a", "a"]] ∧
    ∀ s m, .pass s m ∈ trellis.events → s.Aligned ∧ s.Possible m := by
  obtain ⟨hpass, -, -, -, hnodup, hlooked, -⟩ := course_aligned wellFormed_trellis
  exact ⟨wellFormed_trellis, by decide, by decide, hnodup, hlooked, by decide, hpass⟩

end FieldRules.Dependency
