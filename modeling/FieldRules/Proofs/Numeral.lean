import FieldRules.Json.Decode
import Mathlib.Algebra.Order.Ring.Nat
import Mathlib.Tactic.Ring

/-! Numerals that were written are read back, and only nought starts with one. -/
namespace FieldRules.Numeral

theorem digitValue?_digitChar {d : ℕ} (h : d < 10) : Text.digitValue? d.digitChar = some d := by
  have hall : ∀ d < 10, Text.digitValue? (Nat.digitChar d) = some d := by decide
  exact hall d h

theorem value_append (cs ds : List Char) :
    value (cs ++ ds) = value cs * 10 ^ ds.length + value ds := by
  have hfold : ∀ (l : List ℕ) (n : ℕ), l.foldl (fun n d => 10 * n + d) n =
      n * 10 ^ l.length + l.foldl (fun n d => 10 * n + d) 0 := by
    intro l
    induction l with
    | nil => simp
    | cons d l ih =>
      intro n
      rw [List.foldl_cons, List.foldl_cons, ih (10 * n + d), ih (10 * 0 + d), List.length_cons,
        Nat.pow_succ]
      ring
  unfold value ofDigits
  rw [List.map_append, List.foldl_append, hfold, List.length_map]

theorem value_append_digit (cs : List Char) {d : ℕ} (h : d < 10) :
    value (cs ++ [d.digitChar]) = 10 * value cs + d := by
  have hdigit : value [d.digitChar] = d := by simp [value, ofDigits, digitValue?_digitChar h]
  rw [value_append, hdigit, List.length_singleton, pow_one, Nat.mul_comm]

theorem value_replicate_zero (k : ℕ) : value (List.replicate k '0') = 0 := by
  induction k with
  | zero => rfl
  | succ k ih =>
    rw [List.replicate_succ', value_append, ih]
    rfl

theorem value_toDigits (n : ℕ) : value (Nat.toDigits 10 n) = n := by
  induction n using Nat.strongRecOn with
  | ind n ih =>
    rw [Nat.toDigits_eq_if (by omega)]
    split_ifs with hn
    · simpa [value, ofDigits] using value_append_digit [] hn
    · rw [value_append_digit _ (by omega), ih (n / 10) (by omega)]
      omega

theorem isDigit_of_mem_toDigits {n : ℕ} {c : Char} (hc : c ∈ Nat.toDigits 10 n) :
    Json.isDigit c = true := by
  have h : c.isDigit = true := Nat.isDigit_of_mem_toDigits (by omega) (by omega) hc
  simpa [Json.isDigit, Char.isDigit, Char.le_def] using h

theorem length_toDigits {n : ℕ} (h : n < Nat.pow 10 maxDigits) :
    (Nat.toDigits 10 n).length ≤ maxDigits := by
  have hpos : 0 < maxDigits := by decide
  generalize maxDigits = k at h hpos ⊢
  exact (Nat.length_toDigits_le_iff (by omega) hpos).mpr h

theorem readNat_toDigits {n : ℕ} (h : n < Nat.pow 10 maxDigits) :
    readNat (Nat.toDigits 10 n) = .ok n := by
  rw [readNat, if_pos (length_toDigits h), value_toDigits]

theorem lt_pow_maxDigits {n : ℕ} (h : n < maxDigits) : n < Nat.pow 10 maxDigits := by
  generalize maxDigits = k at h ⊢
  exact h.trans (Nat.lt_pow_self (by omega))

theorem eq_zero_of_head? {n : ℕ} (h : (Nat.toDigits 10 n).head? = some '0') : n = 0 := by
  induction n using Nat.strongRecOn with
  | ind n ih =>
    rw [Nat.toDigits_eq_if (by omega)] at h
    split_ifs at h with hn
    · simpa using h
    · cases hd : Nat.toDigits 10 (n / 10) with
      | nil => exact absurd hd Nat.toDigits_ne_nil
      | cons c cs =>
        rw [hd] at h
        have := ih (n / 10) (by omega) (by rw [hd]; exact h)
        omega

end FieldRules.Numeral
