import FieldRules.Proofs.Text.Split
import Mathlib.Data.List.Basic

/-! What it means to cut a text at a separator, and that every text is cut in one way. -/
namespace FieldRules.Text

/-- A text is cut into pieces at a separator: at the first place where it stands, then what follows
it there, until it stands nowhere. -/
inductive Cut (sep : List Char) : List Char → List (List Char) → Prop
  | last {piece : List Char} (h : ¬ sep <:+: piece) : Cut sep piece [piece]
  | next {piece rest : List Char} {pieces : List (List Char)}
      (hfirst : ∀ front back, piece ++ (sep ++ rest) = front ++ (sep ++ back) →
        piece.length ≤ front.length)
      (hrest : Cut sep rest pieces) : Cut sep (piece ++ (sep ++ rest)) (piece :: pieces)

variable {sep cs : List Char} {pieces pieces' : List (List Char)}

theorem Cut.unique (h : Cut sep cs pieces) (h' : Cut sep cs pieces') : pieces = pieces' := by
  induction h generalizing pieces' with
  | @last piece hnone =>
    generalize hcs : piece = cs at h'
    cases h' with
    | last => rfl
    | @next piece' rest _ _ _ =>
      rw [hcs] at hnone
      exact absurd ⟨piece', rest, by simp⟩ hnone
  | @next piece rest pieces hfirst _ ih =>
    generalize hcs : piece ++ (sep ++ rest) = cs at h'
    cases h' with
    | last hnone =>
      rw [← hcs] at hnone
      exact absurd ⟨piece, rest, by simp⟩ hnone
    | @next piece' rest' pieces' hfirst' hrest' =>
      have hlen : piece.length = piece'.length :=
        Nat.le_antisymm (hfirst _ _ hcs) (hfirst' _ _ hcs.symm)
      obtain ⟨rfl, hrest⟩ := List.append_inj hcs hlen
      rw [List.append_cancel_left hrest] at ih
      rw [ih hrest']

/-- A character goes in front of the first piece, unless the separator starts with it. -/
theorem Cut.cons {c : Char} (h : Cut sep cs pieces) (hc : ¬ sep <+: c :: cs) :
    Cut sep (c :: cs) (consHead c pieces) := by
  cases h with
  | last hnone =>
    refine .last fun hwithin => ?_
    rcases List.infix_cons_iff.mp hwithin with hprefix | hwithin
    · exact hc hprefix
    · exact hnone hwithin
  | @next piece rest pieces hfirst hrest =>
    show Cut sep ((c :: piece) ++ (sep ++ rest)) ((c :: piece) :: pieces)
    refine .next (fun front back hsame => ?_) hrest
    cases front with
    | nil => exact absurd ⟨back, hsame.symm⟩ hc
    | cons d front =>
      have hle := hfirst front back (List.cons.inj hsame).2
      rw [List.length_cons, List.length_cons]
      omega

theorem cut_piecesAfter (hsep : sep ≠ []) (cs : List Char) : Cut sep cs (piecesAfter sep 0 cs) := by
  induction hn : cs.length using Nat.strongRecOn generalizing cs with
  | ind n ih =>
    cases cs with
    | nil => exact .last (by simpa using hsep)
    | cons c cs =>
      by_cases hprefix : sep <+: c :: cs
      · -- the text starts with the separator, and the search goes on behind it
        obtain ⟨rest, hrest⟩ := hprefix
        obtain ⟨a, tail, rfl⟩ := List.exists_cons_of_ne_nil hsep
        have hshort : rest.length < n := by
          rw [← hn, ← hrest, List.length_append, List.length_cons]
          omega
        rw [← hrest, piecesAfter_sep]
        show Cut (a :: tail) ([] ++ (a :: tail ++ rest)) ([] :: piecesAfter (a :: tail) 0 rest)
        exact .next (fun _ _ _ => Nat.zero_le _) (ih _ hshort rest rfl)
      · have hshort : cs.length < n := by
          rw [← hn, List.length_cons]
          omega
        rw [piecesAfter, if_neg fun h => hprefix (List.isPrefixOf_iff_prefix.mp h)]
        exact (ih _ hshort cs rfl).cons hprefix

/-- A text is cut into parts at a separator. -/
def Cuts (sep s : String) (parts : List String) : Prop :=
  Cut sep.toList s.toList (parts.map String.toList)

theorem cuts_iff {sep s : String} {parts : List String} (hsep : sep ≠ "") :
    Cuts sep s parts ↔ parts = split sep s := by
  have hcut : Cut sep.toList s.toList (piecesAfter sep.toList 0 s.toList) :=
    cut_piecesAfter (by simpa using hsep) s.toList
  have htexts : (split sep s).map String.toList = piecesAfter sep.toList 0 s.toList := by
    simp [split]
  constructor
  · intro h
    have hsame := Cut.unique h hcut
    rw [← htexts] at hsame
    exact List.map_injective_iff.mpr (fun _ _ h => String.toList_inj.mp h) hsame
  · rintro rfl
    rw [Cuts, htexts]
    exact hcut

/-- A text is left whole if the separator does not stand in it. -/
theorem split_eq_singleton_iff {sep s part : String} (hsep : sep ≠ "") :
    split sep s = [part] ↔ s = part ∧ ¬ sep.toList <:+: part.toList := by
  rw [eq_comm, ← cuts_iff hsep, Cuts, List.map_singleton]
  constructor
  · intro h
    generalize hs : s.toList = cs at h
    generalize hparts : [part.toList] = parts at h
    cases h with
    | last hnone =>
      obtain ⟨rfl, -⟩ := List.cons.inj hparts
      exact ⟨String.toList_inj.mp hs, hnone⟩
    | next _ hrest =>
      obtain ⟨-, rfl⟩ := List.cons.inj hparts
      cases hrest
  · rintro ⟨rfl, hnone⟩
    exact .last hnone

theorem mem_of_mem_consHead {c d : Char} {piece : List Char} (h : piece ∈ consHead d pieces)
    (hc : c ∈ piece) : c = d ∨ ∃ p ∈ pieces, c ∈ p := by
  cases pieces with
  | nil =>
    rw [consHead, List.mem_singleton] at h
    subst h
    exact .inl (List.mem_singleton.mp hc)
  | cons p pieces =>
    rcases List.mem_cons.mp h with rfl | h
    · exact (List.mem_cons.mp hc).imp_right fun hc => ⟨p, List.mem_cons_self, hc⟩
    · exact .inr ⟨piece, List.mem_cons_of_mem p h, hc⟩

theorem mem_of_mem_piecesAfter {skip : ℕ} {piece : List Char} {c : Char}
    (h : piece ∈ piecesAfter sep skip cs) (hc : c ∈ piece) : c ∈ cs := by
  induction cs generalizing skip piece with
  | nil => simp_all [piecesAfter]
  | cons d cs ih =>
    cases skip with
    | succ skip => exact List.mem_cons_of_mem d (ih h hc)
    | zero =>
      rw [piecesAfter] at h
      split at h
      · rcases List.mem_cons.mp h with rfl | h
        · cases hc
        · exact List.mem_cons_of_mem d (ih h hc)
      · rcases mem_of_mem_consHead h hc with rfl | ⟨p, hp, hc⟩
        · exact List.mem_cons_self
        · exact List.mem_cons_of_mem d (ih hp hc)

theorem mem_of_mem_split {sep s part : String} {c : Char} (h : part ∈ split sep s)
    (hc : c ∈ part.toList) : c ∈ s.toList := by
  obtain ⟨piece, hpiece, rfl⟩ := List.mem_map.mp h
  rw [String.toList_ofList] at hc
  exact mem_of_mem_piecesAfter hpiece hc

end FieldRules.Text
