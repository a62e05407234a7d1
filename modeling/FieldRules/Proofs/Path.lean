import FieldRules.Path
import FieldRules.Proofs.Text.Split
import Mathlib.Data.List.Basic

/-! Names and their segments. A name is cut at its dots, and its segments make the name again; to
go on from a name by some segments is to join them to its own. -/
namespace FieldRules.Path

variable {name parent key : String} {keys : List String}

/-- A text that can be a segment of a name. -/
def IsSegment (key : String) : Prop :=
  key ≠ "" ∧ '.' ∉ key.toList

instance (key : String) : Decidable (IsSegment key) :=
  inferInstanceAs (Decidable (_ ∧ _))

/-- The name that is reached from another by going down some segments. -/
def below (path : String) (keys : List String) : String :=
  keys.foldl (fun p k => p ++ "." ++ k) path

theorem toList_ofSegments (keys : List String) :
    (ofSegments keys).toList = ['.'].intercalate (keys.map String.toList) := by
  simp [ofSegments, Text.join]

theorem segments_ofSegments (hne : keys ≠ []) (hdot : ∀ k ∈ keys, '.' ∉ k.toList) :
    segments (ofSegments keys) = keys := by
  have hsplit : (['.'].intercalate (keys.map String.toList)).splitOn '.' =
      keys.map String.toList :=
    List.splitOn_intercalate '.' (by simpa using hdot) (by simpa using hne)
  rw [segments, toList_ofSegments, hsplit, List.map_map]
  simp

theorem ofSegments_segments (name : String) : ofSegments (segments name) = name := by
  have hparts : (segments name).map String.toList = name.toList.splitOn '.' := by
    simp [segments, Function.comp_def]
  rw [← String.toList_inj, toList_ofSegments, hparts, List.intercalate_splitOn]

theorem segments_ne_nil (name : String) : segments name ≠ [] := by
  simp [segments]

theorem segments_inj : segments name = segments parent ↔ name = parent := by
  refine ⟨fun h => ?_, congrArg segments⟩
  rw [← ofSegments_segments name, h, ofSegments_segments]

theorem ofSegments_cons (key : String) (hne : keys ≠ []) :
    ofSegments (key :: keys) = key ++ "." ++ ofSegments keys := by
  obtain ⟨next, rest, rfl⟩ := List.exists_cons_of_ne_nil hne
  rw [← String.toList_inj, String.toList_append, String.toList_append, toList_ofSegments,
    toList_ofSegments, List.map_cons, List.map_cons, List.intercalate_cons_cons]
  rfl

theorem below_append (front path : String) (keys : List String) :
    below (front ++ path) keys = front ++ below path keys := by
  unfold below
  induction keys generalizing path with
  | nil => rfl
  | cons k keys ih =>
    rw [List.foldl_cons, List.foldl_cons, ← ih, String.append_assoc, String.append_assoc,
      String.append_assoc]

theorem ofSegments_eq_below (key : String) (keys : List String) :
    ofSegments (key :: keys) = below key keys := by
  induction keys generalizing key with
  | nil => simp [ofSegments, Text.join, below]
  | cons next keys ih =>
    rw [ofSegments_cons key (List.cons_ne_nil next keys), ih next]
    exact (below_append (key ++ ".") next keys).symm

theorem segments_append (parent rest : String) :
    segments (parent ++ "." ++ rest) = segments parent ++ segments rest := by
  have hdot : (parent ++ "." ++ rest).toList = parent.toList ++ '.' :: rest.toList := by simp
  rw [segments, hdot, List.splitOn_append_cons_self, List.map_append]
  rfl

private theorem not_mem_of_mem_splitOn {sep : Char} {cs part : List Char}
    (h : part ∈ cs.splitOn sep) : sep ∉ part := by
  induction cs generalizing part with
  | nil => simp_all
  | cons c cs ih =>
    rw [List.splitOn_cons_eq_if_modifyHead] at h
    split at h
    · rcases List.mem_cons.mp h with rfl | h
      · exact List.not_mem_nil
      · exact ih h
    · rename_i hc
      have hc : c ≠ sep := by simpa using hc
      obtain ⟨first, rest, hcut⟩ := List.exists_cons_of_ne_nil (List.splitOn_ne_nil sep cs)
      rw [hcut, List.modifyHead_cons] at h
      rw [hcut] at ih
      rcases List.mem_cons.mp h with rfl | h
      · have hfirst : sep ∉ first := ih List.mem_cons_self
        simpa [hc.symm] using hfirst
      · exact ih (List.mem_cons_of_mem _ h)

theorem not_mem_of_mem_segments (h : key ∈ segments name) : '.' ∉ key.toList := by
  obtain ⟨part, hpart, rfl⟩ := List.mem_map.mp h
  rw [String.toList_ofList]
  exact not_mem_of_mem_splitOn hpart

/-- A name whose segments go on from those of another lies under that one. -/
theorem isUnder_of_prefix (h : segments parent <+: segments name) (hne : parent ≠ name) :
    isUnder name parent = true := by
  obtain ⟨rest, hrest⟩ := h
  have hcut : rest ≠ [] := by
    rintro rfl
    exact hne (segments_inj.mp (by simpa using hrest))
  have hdot : ∀ k ∈ rest, '.' ∉ k.toList := by
    intro k hk
    have hmem : k ∈ segments name := hrest ▸ List.mem_append_right _ hk
    exact not_mem_of_mem_segments hmem
  have hname : name = parent ++ "." ++ ofSegments rest := by
    rw [← segments_inj, segments_append, segments_ofSegments hcut hdot, hrest]
  rw [hname, isUnder]
  exact Text.startsWith_append _ _

end FieldRules.Path
