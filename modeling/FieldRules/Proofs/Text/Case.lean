import FieldRules.Text.Sigma
import Mathlib.Tactic.SplitIfs

/-! A text in lower case is kept as it is when it is put into lower case again. -/
namespace FieldRules.Text

namespace CaseRun

variable {r other : CaseRun} {code : Nat}

/-- Where a run moves a code point. -/
def target (r : CaseRun) (code : Nat) : Nat :=
  ((code : Int) + r.offset).toNat

/-- Whether a run moves its code points below or above those of another run, or between them. -/
def avoids (r other : CaseRun) : Bool :=
  -- comparisons that stay quick for the many pairs of runs
  Nat.blt (r.target r.last) other.first || Nat.blt other.last (r.target r.first) ||
    ((Nat.beq r.first r.last || Nat.beq (r.step % other.step) 0) &&
      Nat.blt 0 ((r.target r.first - other.first) % other.step))

theorem covers_iff :
    r.covers code = true ↔ r.first ≤ code ∧ code ≤ r.last ∧ (code - r.first) % r.step = 0 := by
  simp [covers, and_assoc]

theorem avoids_iff : r.avoids other = true ↔
    r.target r.last < other.first ∨ other.last < r.target r.first ∨
      (r.first = r.last ∨ r.step % other.step = 0) ∧
        0 < (r.target r.first - other.first) % other.step := by
  simp [avoids, or_assoc]

theorem not_covers_target (h : r.avoids other = true) (hcode : r.covers code = true) :
    ¬ other.covers (r.target code) = true := by
  obtain ⟨hfirst, hlast, hstep⟩ := covers_iff.mp hcode
  intro hother
  obtain ⟨hfirst', hlast', hstep'⟩ := covers_iff.mp hother
  have hle : r.target code ≤ r.target r.last := by
    unfold target
    omega
  have hge : r.target r.first ≤ r.target code := by
    unfold target
    omega
  rcases avoids_iff.mp h with hbelow | habove | ⟨hsteps, hoff⟩
  · omega
  · omega
  · -- from the first code point on, both runs go in steps of the other one
    have hdvd : other.step ∣ code - r.first := by
      rcases hsteps with hsingle | hsteps
      · rw [show code - r.first = 0 by omega]
        exact Nat.dvd_zero _
      · exact Nat.dvd_trans (Nat.dvd_of_mod_eq_zero hsteps) (Nat.dvd_of_mod_eq_zero hstep)
    have hpos : 0 < r.target r.first - other.first := by
      refine Nat.pos_of_ne_zero fun hzero => ?_
      rw [hzero, Nat.zero_mod] at hoff
      exact Nat.lt_irrefl 0 hoff
    have hmoved : r.target code - other.first =
        r.target r.first - other.first + (code - r.first) := by
      unfold target at *
      omega
    rw [hmoved, Nat.add_mod, Nat.mod_eq_zero_of_dvd hdvd, Nat.add_zero, Nat.mod_mod] at hstep'
    exact Nat.ne_of_gt hoff hstep'

end CaseRun

/-- No code point is moved onto one that is moved itself. -/
theorem lowerRuns_avoid : (lowerRuns.all fun r => lowerRuns.all r.avoids) = true := by
  decide +kernel

theorem lowerCode_lowerCode (code : Nat) : lowerCode (lowerCode code) = lowerCode code := by
  unfold lowerCode shiftCase
  cases hr : lowerRuns.find? (·.covers code) with
  | none => simp [hr]
  | some r =>
    have hmem : r ∈ lowerRuns := List.mem_of_find?_eq_some hr
    have hcode : r.covers code = true := by simpa using List.find?_some hr
    have hnone : lowerRuns.find? (·.covers (code + r.offset).toNat) = none := by
      rw [List.find?_eq_none]
      intro other hother
      exact CaseRun.not_covers_target
        (List.all_eq_true.mp (List.all_eq_true.mp lowerRuns_avoid r hmem) other hother) hcode
    simp only [hnone]

/-- A character is its own lower case. -/
def IsLower (c : Char) : Prop :=
  lowerCode c.toNat = c.toNat

instance (c : Char) : Decidable (IsLower c) :=
  inferInstanceAs (Decidable (_ = _))

theorem isLower_ofNat (code : Nat) : IsLower (Char.ofNat (lowerCode code)) := by
  by_cases hvalid : (lowerCode code).isValidChar
  · have hchar : Char.ofNat (lowerCode code) = Char.ofNatAux (lowerCode code) hvalid :=
      dif_pos hvalid
    rw [hchar]
    exact lowerCode_lowerCode code
  · have hchar : Char.ofNat (lowerCode code) = '\x00' := dif_neg hvalid
    rw [hchar]
    decide +kernel

theorem isLower_of_mem_lowerChar {before after : List Char} {c d : Char}
    (h : d ∈ lowerChar before c after) : IsLower d := by
  unfold lowerChar at h
  split_ifs at h with hsigma hend hdot
  · rw [List.mem_singleton.mp h]
    decide +kernel
  · rw [List.mem_singleton.mp h]
    decide +kernel
  · rw [List.mem_cons, List.mem_singleton] at h
    rcases h with rfl | rfl
    · decide +kernel
    · decide +kernel
  · rw [List.mem_singleton.mp h]
    exact isLower_ofNat c.toNat

theorem isLower_of_mem_lowerFrom {before cs : List Char} {c : Char} (h : c ∈ lowerFrom before cs) :
    IsLower c := by
  induction cs generalizing before with
  | nil => cases h
  | cons d cs ih =>
    rcases List.mem_append.mp h with h | h
    · exact isLower_of_mem_lowerChar h
    · exact ih h

theorem isLower_of_mem_lower {s : String} {c : Char} (h : c ∈ (lower s).toList) : IsLower c := by
  rw [lower, String.toList_ofList] at h
  exact isLower_of_mem_lowerFrom h

theorem lowerChar_eq {c : Char} (h : IsLower c) (before after : List Char) :
    lowerChar before c after = [c] := by
  have hsigma : c ≠ 'Σ' := fun hc => absurd (hc ▸ h) (by decide +kernel)
  have hdot : c ≠ 'İ' := fun hc => absurd (hc ▸ h) (by decide +kernel)
  unfold IsLower at h
  rw [lowerChar, if_neg hsigma, if_neg hdot, h, Char.ofNat_toNat]

theorem lowerFrom_eq {cs : List Char} (h : ∀ c ∈ cs, IsLower c) (before : List Char) :
    lowerFrom before cs = cs := by
  induction cs generalizing before with
  | nil => rfl
  | cons c cs ih =>
    obtain ⟨hc, hcs⟩ := List.forall_mem_cons.mp h
    rw [lowerFrom, lowerChar_eq hc, ih hcs, List.singleton_append]

theorem lower_eq {s : String} (h : ∀ c ∈ s.toList, IsLower c) : lower s = s := by
  rw [lower, lowerFrom_eq h, String.ofList_toList]

end FieldRules.Text
