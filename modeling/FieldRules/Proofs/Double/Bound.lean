import FieldRules.Double
import FieldRules.Numeral
import Mathlib.Algebra.Order.Ring.Nat

/-! The integers among the numbers of double precision: none has too many digits to be written. -/
namespace FieldRules.Double

/-- The integer that a number is can be written. All numbers of double precision are so. -/
def Writable (d : Double) : Prop :=
  ∀ i, d.toInt? = some i → i.natAbs < Nat.pow 10 Numeral.maxDigits

theorem natAbs_toInt?_le {negative : Bool} {m : ℕ} {e i : ℤ}
    (h : toInt? (.finite negative m e) = some i) : i.natAbs ≤ m * 2 ^ e.toNat := by
  unfold toInt? at h
  dsimp only at h
  generalize hn : (m <<< e.toNat) >>> (-e).toNat = n at h
  have hle : n ≤ m * 2 ^ e.toNat := by
    rw [← hn, ← Nat.shiftLeft_eq]
    exact Nat.shiftRight_le _ _
  split_ifs at h <;> cases h <;> simpa using hle

theorem writable_finite {negative : Bool} {m : ℕ} {e : ℤ} (hm : m ≤ 2 ^ 54)
    (he : e ≤ maxExponent) : Writable (.finite negative m e) := by
  intro i hi
  have hexp : 54 + e.toNat ≤ Numeral.maxDigits := by
    unfold maxExponent at he
    unfold Numeral.maxDigits
    omega
  generalize Numeral.maxDigits = k at hexp ⊢
  calc i.natAbs ≤ m * 2 ^ e.toNat := natAbs_toInt?_le hi
    _ ≤ 2 ^ 54 * 2 ^ e.toNat := Nat.mul_le_mul_right _ hm
    _ = 2 ^ (54 + e.toNat) := (Nat.pow_add 2 54 e.toNat).symm
    _ < 10 ^ (54 + e.toNat) := Nat.pow_lt_pow_left (by omega) (by omega)
    _ ≤ 10 ^ k := Nat.pow_le_pow_right (by omega) hexp

theorem writable_nan : Writable .nan := by simp [Writable, toInt?]

theorem writable_infinity (negative : Bool) : Writable (.infinity negative) := by
  simp [Writable, toInt?]

theorem roundDiv_le (num den : ℕ) : roundDiv num den ≤ num / den + 1 := by
  unfold roundDiv
  dsimp only
  split_ifs <;> omega

/-- From the least exponent that is tried the quotient has no more than 54 binary digits. -/
theorem scale_div_lt {num den : ℕ} {e : ℤ} (hd : den ≠ 0)
    (he : (num.log2 : ℤ) - den.log2 - 53 ≤ e) :
    (scale num den e).1 / (scale num den e).2 < 2 ^ 54 := by
  have hnum : num < 2 ^ (num.log2 + 1) := Nat.lt_log2_self
  have hden : 2 ^ den.log2 ≤ den := Nat.log2_self_le hd
  have hpos : 0 < den * 2 ^ e.toNat := Nat.mul_pos (Nat.pos_of_ne_zero hd) (Nat.two_pow_pos _)
  unfold scale
  dsimp only
  rw [Nat.shiftLeft_eq, Nat.shiftLeft_eq, Nat.div_lt_iff_lt_mul hpos]
  calc num * 2 ^ (-e).toNat < 2 ^ (num.log2 + 1) * 2 ^ (-e).toNat :=
        Nat.mul_lt_mul_of_pos_right hnum (Nat.two_pow_pos _)
    _ = 2 ^ (num.log2 + 1 + (-e).toNat) := (Nat.pow_add _ _ _).symm
    _ ≤ 2 ^ (54 + (den.log2 + e.toNat)) := Nat.pow_le_pow_right (by omega) (by omega)
    _ = 2 ^ 54 * (2 ^ den.log2 * 2 ^ e.toNat) := by rw [Nat.pow_add, Nat.pow_add]
    _ ≤ 2 ^ 54 * (den * 2 ^ e.toNat) := Nat.mul_le_mul_left _ (Nat.mul_le_mul_right _ hden)

theorem le_exponentFor (num den : ℕ) :
    (num.log2 : ℤ) - den.log2 - 53 ≤ exponentFor num den := by
  unfold exponentFor
  dsimp only
  split_ifs <;> omega

theorem writable_pack (negative : Bool) {m : ℕ} (e : ℤ) (hm : m ≤ 2 ^ 54) :
    Writable (pack negative m e) := by
  unfold pack
  dsimp only
  split_ifs with hb he he
  · exact writable_finite (by omega) he
  · exact writable_infinity negative
  · exact writable_finite hm he
  · exact writable_infinity negative

theorem writable_nearest (negative : Bool) (num : ℕ) {den : ℕ} (hd : den ≠ 0) :
    Writable (nearest negative num den) := by
  unfold nearest
  split_ifs
  · exact writable_finite (by omega) (by decide)
  · refine writable_pack negative _ ?_
    have hlt := scale_div_lt hd (le_exponentFor num den)
    exact (roundDiv_le _ _).trans hlt

theorem writable_ofDecimal (negative : Bool) (digits : ℕ) (exponent : ℤ) :
    Writable (ofDecimal negative digits exponent) := by
  unfold ofDecimal
  dsimp only
  split_ifs
  · exact writable_finite (by omega) (by decide)
  · exact writable_infinity negative
  · exact writable_finite (by omega) (by decide)
  · exact writable_nearest negative _ (Nat.pos_iff_ne_zero.mp (Nat.pow_pos (by omega)))

end FieldRules.Double
