import FieldRules.Proofs.Entries
import FieldRules.Proofs.Fault
import FieldRules.Proofs.Numeral
import FieldRules.Proofs.Path
import FieldRules.Value.Nest
import Mathlib.Data.List.Perm.Basic
import Mathlib.Data.List.Sort

/-! Positions as keys: a mapping whose keys are the positions of a list becomes that list. -/
namespace FieldRules

namespace Numeral

theorem toList_toString (n : ℕ) : (toString n).toList = Nat.toDigits 10 n := by
  simp [toString, Nat.repr]

theorem isDigit_of_mem_toString {n : ℕ} {c : Char} (hc : c ∈ (toString n).toList) :
    Text.isDigit c = true := by
  rw [toList_toString] at hc
  have hdigit : Json.isDigit c = true := isDigit_of_mem_toDigits hc
  have hrange : 0x30 ≤ c.toNat ∧ c.toNat ≤ 0x39 := by
    simpa [Json.isDigit, Char.le_def, UInt32.le_iff_toNat_le] using hdigit
  rw [Text.isDigit, Text.CodeRanges.holds_iff]
  exact ⟨(0x30, 0x39), by simp [Text.digitRanges], hrange⟩

theorem toString_ne_empty (n : ℕ) : toString n ≠ "" := by
  intro h
  have hnil : Nat.toDigits 10 n = [] := by rw [← toList_toString, h]; rfl
  exact Nat.toDigits_ne_nil hnil

theorem value_toString (n : ℕ) : value (toString n).toList = n := by
  rw [toList_toString, value_toDigits]

theorem toString_injective : Function.Injective (toString : ℕ → String) := by
  intro m n h
  rw [← value_toString m, h, value_toString]

theorem readNat_toString {n : ℕ} (h : n < Nat.pow 10 maxDigits) :
    readNat (toString n).toList = .ok n := by
  rw [toList_toString, readNat_toDigits h]

end Numeral

namespace Path

/-- A key that is made of digits only. -/
def IsPosition (key : String) : Prop :=
  ∀ c ∈ key.toList, Text.isDigit c = true

instance (key : String) : Decidable (IsPosition key) :=
  decidable_of_iff (key.toList.all Text.isDigit = true) List.all_eq_true

/-- The positions from one up to a number. -/
def IsCount (n : ℕ) (key : String) : Prop :=
  ∃ i, 1 ≤ i ∧ i ≤ n ∧ key = toString i

theorem isPosition_toString (n : ℕ) : IsPosition (toString n) :=
  fun _ hc => Numeral.isDigit_of_mem_toString hc

theorem isSegment_toString (n : ℕ) : IsSegment (toString n) := by
  refine ⟨Numeral.toString_ne_empty n, fun hdot => ?_⟩
  have hdigit : Text.isDigit '.' = true := isPosition_toString n '.' hdot
  revert hdigit
  decide

end Path

namespace Entries

variable {α : Type} {xs : List α} {n : ℕ}

/-- The items of a list under their positions, from a position on. -/
def numbered : ℕ → List α → Entries α
  | _, [] => []
  | n, x :: xs => (toString n, x) :: numbered (n + 1) xs

theorem numbered_eq (n : ℕ) (xs : List α) :
    numbered n xs = (xs.zipIdx n).map fun x => (toString x.2, x.1) := by
  induction xs generalizing n with
  | nil => rfl
  | cons x xs ih => rw [numbered, ih, List.zipIdx_cons, List.map_cons]

theorem keys_numbered (n : ℕ) (xs : List α) :
    keys (numbered n xs) = (List.range' n xs.length).map toString := by
  rw [numbered_eq, keys, List.map_map, ← List.zipIdx_map_snd, List.map_map]
  rfl

theorem nodup_keys_numbered (n : ℕ) (xs : List α) : (keys (numbered n xs)).Nodup := by
  rw [keys_numbered]
  exact List.Nodup.map Numeral.toString_injective List.nodup_range'

theorem mem_of_mem_numbered {e : String × α} (h : e ∈ numbered n xs) : e.2 ∈ xs := by
  rw [numbered_eq] at h
  obtain ⟨⟨x, i⟩, hx, rfl⟩ := List.mem_map.mp h
  exact List.fst_mem_of_mem_zipIdx hx

theorem exists_position_of_mem_numbered {e : String × α} (h : e ∈ numbered n xs) :
    ∃ i < n + xs.length, e.1 = toString i := by
  have hkey : e.1 ∈ keys (numbered n xs) := List.mem_map_of_mem h
  rw [keys_numbered] at hkey
  obtain ⟨i, hi, hkey⟩ := List.mem_map.mp hkey
  have hlt := (List.mem_range'_1.mp hi).2
  exact ⟨i, hlt, hkey.symm⟩

theorem numbered_map_range' (f : ℕ → α) (m n : ℕ) :
    numbered m ((List.range' m n).map f) =
      (List.range' m n).map fun i => (toString i, f i) := by
  induction n generalizing m with
  | zero => rfl
  | succ n ih => rw [List.range'_succ, List.map_cons, numbered, ih, List.map_cons]

theorem values_numbered (n : ℕ) (xs : List α) :
    (numbered n xs).map (·.2) = xs := by
  induction xs generalizing n with
  | nil => rfl
  | cons x xs ih => rw [numbered, List.map_cons, ih]

/-- Entries whose keys are counted from one are the numbered items of some list. -/
theorem exists_perm_numbered [Inhabited α] {es : Entries α} (hn : (keys es).Nodup) {n : ℕ}
    (h : ∀ k, k ∈ keys es ↔ Path.IsCount n k) :
    ∃ xs, xs.length = n ∧ es.Perm (numbered 1 xs) := by
  let item (i : ℕ) : α := (get? es (toString i)).getD default
  refine ⟨(List.range' 1 n).map item, by simp, ?_⟩
  have hnumbered : (numbered 1 ((List.range' 1 n).map item)).Nodup :=
    .of_map Prod.fst (nodup_keys_numbered 1 _)
  rw [List.perm_ext_iff_of_nodup (.of_map Prod.fst hn) hnumbered, numbered_map_range']
  rintro ⟨k, v⟩
  have hcount : ∀ i, i ∈ List.range' 1 n ↔ 1 ≤ i ∧ i ≤ n := by
    intro i
    rw [List.mem_range'_1]
    omega
  rw [List.mem_map]
  constructor
  · intro hmem
    obtain ⟨i, hlow, hhigh, hk⟩ := (h k).mp (List.mem_map_of_mem hmem)
    refine ⟨i, (hcount i).mpr ⟨hlow, hhigh⟩, ?_⟩
    have hget : get? es (toString i) = some v := hk ▸ get?_eq_some hn hmem
    have hitem : item i = v := by
      simp only [item, hget, Option.getD_some]
    rw [hitem, hk]
  · rintro ⟨i, hi, heq⟩
    cases heq
    obtain ⟨hlow, hhigh⟩ := (hcount i).mp hi
    obtain ⟨e, he, hkey⟩ := List.mem_map.mp ((h (toString i)).mpr ⟨i, hlow, hhigh, rfl⟩)
    have hget : get? es (toString i) = some e.2 :=
      get?_eq_some hn (hkey ▸ he)
    simp only [item, hget, Option.getD_some]
    exact hkey ▸ he

end Entries

namespace Value

variable {es : Entries Value} {xs : List Value}

theorem positionDigits?_eq {key : String} (hne : key ≠ "") (hline : '\n' ∉ key.toList) :
    positionDigits? key = if Path.IsPosition key then some key.toList else none := by
  have hlast : key.toList.getLast? ≠ some '\n' := fun h => hline (List.mem_of_getLast? h)
  have hempty : key.toList.isEmpty = false := by simpa using hne
  by_cases hkey : Path.IsPosition key
  · rw [if_pos hkey]
    simpa [positionDigits?, hlast, hempty, Path.IsPosition] using hkey
  · rw [if_neg hkey]
    simpa [positionDigits?, hlast, hempty, Path.IsPosition] using hkey

theorem positionDigits?_toString (n : ℕ) :
    positionDigits? (toString n) = some (toString n).toList := by
  have hline : '\n' ∉ (toString n).toList := by
    intro hmem
    have hdigit : Text.isDigit '\n' = true := Path.isPosition_toString n '\n' hmem
    revert hdigit
    decide
  rw [positionDigits?_eq (Numeral.toString_ne_empty n) hline, if_pos (Path.isPosition_toString n)]

theorem positions?_eq_some (h : ∀ e ∈ es, positionDigits? e.1 = some e.1.toList) :
    positions? es = some (es.map fun e => (e.1.toList, e.2)) := by
  unfold positions?
  induction es with
  | nil => rfl
  | cons e es ih =>
    obtain ⟨he, hes⟩ := List.forall_mem_cons.mp h
    simp [List.mapM_cons, he, ih hes]

theorem positions?_eq_none {e : String × Value} (he : e ∈ es)
    (h : positionDigits? e.1 = none) : positions? es = none := by
  unfold positions?
  induction es with
  | nil => cases he
  | cons f es ih =>
    rcases List.mem_cons.mp he with rfl | he
    · simp [List.mapM_cons, h]
    · simp [List.mapM_cons, ih he]

/-- A mapping with a key that is no position stays one. -/
theorem ofEntries_of_not_position {e : String × Value} (he : e ∈ es)
    (h : positionDigits? e.1 = none) : ofEntries es = .ok (.map es) := by
  unfold ofEntries
  rw [positions?_eq_none he h]
  cases es with
  | nil => rfl
  | cons _ _ => rfl

/-- Numbered items come into their order by their numbers. -/
theorem mergeSort_zipIdx {α : Type} {pairs : List (ℕ × α)} {xs : List α}
    (h : pairs.Perm ((xs.zipIdx 1).map Prod.swap)) :
    pairs.mergeSort (fun a b => decide (a.1 ≤ b.1)) = (xs.zipIdx 1).map Prod.swap := by
  have hfst : ((xs.zipIdx 1).map Prod.swap).map (·.1) = List.range' 1 xs.length := by
    rw [List.map_map, ← List.zipIdx_map_snd]
    rfl
  have hsorted : ((xs.zipIdx 1).map Prod.swap).Pairwise fun a b => decide (a.1 ≤ b.1) = true := by
    have hrange : (((xs.zipIdx 1).map Prod.swap).map (·.1)).Pairwise (· ≤ ·) := by
      rw [hfst]
      exact List.pairwise_le_range'
    simpa [List.pairwise_map] using hrange
  have hmerge : (pairs.mergeSort fun a b => decide (a.1 ≤ b.1)).Pairwise
      fun a b => decide (a.1 ≤ b.1) = true := by
    apply List.pairwise_mergeSort
    · simp only [decide_eq_true_eq]
      omega
    · simp only [Bool.or_eq_true, decide_eq_true_eq]
      omega
  have hperm := (List.mergeSort_perm pairs fun a b => decide (a.1 ≤ b.1)).trans h
  refine hperm.eq_of_pairwise ?_ hmerge hsorted
  intro a b ha hb hab hba
  have hn : (((xs.zipIdx 1).map Prod.swap).map (·.1)).Nodup := by
    rw [hfst]
    exact List.nodup_range'
  refine List.inj_on_of_nodup_map hn (hperm.mem_iff.mp ha) hb ?_
  simp only [decide_eq_true_eq] at hab hba
  omega

/-- The items of a list under their positions, in any order, are that list. -/
theorem ofEntries_numbered (hne : xs ≠ []) (hsize : xs.length < Nat.pow 10 Numeral.maxDigits)
    (h : es.Perm (Entries.numbered 1 xs)) : ofEntries es = .ok (.list xs) := by
  have hkey : ∀ e ∈ es, ∃ i < Nat.pow 10 Numeral.maxDigits, e.1 = toString i := by
    intro e he
    obtain ⟨i, hi, hkey⟩ := Entries.exists_position_of_mem_numbered (h.mem_iff.mp he)
    have hle : i ≤ xs.length := by omega
    exact ⟨i, hle.trans_lt hsize, hkey⟩
  have hplaces : positions? es = some (es.map fun e => (e.1.toList, e.2)) := by
    refine positions?_eq_some fun e he => ?_
    obtain ⟨i, -, hi⟩ := hkey e he
    rw [hi, positionDigits?_toString]
  have hread : ∀ p ∈ es.map fun e => (e.1.toList, e.2), (do
      let n ← Numeral.readNat p.1
      return (n, p.2)) = Except.ok (ε := Fault) (Numeral.value p.1, p.2) := by
    intro p hp
    obtain ⟨e, he, rfl⟩ := List.mem_map.mp hp
    obtain ⟨i, hi, hkey⟩ := hkey e he
    simp only [hkey, Numeral.readNat_toString hi, Numeral.value_toString]
    rfl
  have hswap : (es.map fun e => (Numeral.value e.1.toList, e.2)).Perm
      ((xs.zipIdx 1).map Prod.swap) := by
    have hmap := h.map fun e => (Numeral.value e.1.toList, e.2)
    rw [Entries.numbered_eq, List.map_map] at hmap
    refine hmap.trans (List.Perm.of_eq (List.map_congr_left fun x _ => ?_))
    rw [Function.comp_apply, Numeral.value_toString]
    rfl
  have hitems : ((xs.zipIdx 1).map Prod.swap).map (·.2) = xs := by
    rw [List.map_map]
    exact List.zipIdx_map_fst 1 xs
  have hes : es ≠ [] := by
    rintro rfl
    have hnil : Entries.numbered 1 xs = [] := h.symm.eq_nil
    cases xs with
    | nil => exact hne rfl
    | cons x xs => cases hnil
  obtain ⟨e, rest, hcons⟩ := List.exists_cons_of_ne_nil hes
  unfold ofEntries
  rw [hplaces, hcons]
  dsimp only
  rw [← hcons, Fault.mapM_eq_ok hread, List.map_map]
  change Except.ok (Value.list (((es.map fun e => (Numeral.value e.1.toList, e.2)).mergeSort
    fun a b => decide (a.1 ≤ b.1)).map (·.2))) = _
  rw [mergeSort_zipIdx hswap, hitems]

end Value

end FieldRules
