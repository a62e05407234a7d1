import FieldRules.Proofs.Double.Bound
import Mathlib.Algebra.Order.Field.Power
import Mathlib.Algebra.Order.Field.Rat
import Mathlib.Data.Nat.Cast.Order.Field
import Mathlib.Tactic.FieldSimp
import Mathlib.Tactic.GCongr
import Mathlib.Tactic.Linarith
import Mathlib.Tactic.NormNum
import Mathlib.Tactic.Positivity
import Mathlib.Tactic.Ring
import Mathlib.Tactic.SplitIfs
import Mathlib.Tactic.Tauto

/-! Reading a decimal rounds it to the nearest number of double precision. Each finite number has an
interval of rationals that are read as it, and no other form than its canonical one. -/
namespace FieldRules.Double

/-- A quotient is rounded to a number that is less than a half away from it, or a half if even. -/
theorem roundDiv_eq {n d k : ℕ} (hd : 0 < d)
    (h : |(n : ℚ) / d - k| < 1 / 2 ∨ k % 2 = 0 ∧ |(n : ℚ) / d - k| = 1 / 2) :
    roundDiv n d = k := by
  have hdq : (0 : ℚ) < d := by exact_mod_cast hd
  have hn : n = d * (n / d) + n % d := (Nat.div_add_mod n d).symm
  have hr : n % d < d := Nat.mod_lt n hd
  unfold roundDiv
  dsimp only
  generalize n / d = q at hn ⊢
  generalize n % d = r at hn hr ⊢
  have hrq : (r : ℚ) < d := by exact_mod_cast hr
  have hquot : (n : ℚ) / d = q + r / d := by
    rw [hn]
    push_cast
    field_simp
  have hfrac : (r : ℚ) / d < 1 := (div_lt_one hdq).mpr hrq
  have hfrac0 : (0 : ℚ) ≤ r / d := by positivity
  have habs : |(n : ℚ) / d - k| ≤ 1 / 2 := by
    rcases h with h | h
    · exact h.le
    · exact h.2.le
  rw [hquot, abs_le] at habs
  have hlow : q ≤ k := by
    have : (q : ℚ) < k + 1 := by linarith
    have : q < k + 1 := by exact_mod_cast this
    omega
  have hhigh : k ≤ q + 1 := by
    have : (k : ℚ) < q + 2 := by linarith
    have : k < q + 2 := by exact_mod_cast this
    omega
  have htwice : ((r : ℚ) / d < 1 / 2 ↔ 2 * r < d) ∧ ((r : ℚ) / d = 1 / 2 ↔ 2 * r = d) := by
    rw [div_lt_div_iff₀ hdq (by norm_num), div_eq_div_iff hdq.ne' (by norm_num)]
    constructor
    · norm_cast
      omega
    · norm_cast
      omega
  rw [hquot] at h
  obtain rfl | rfl : k = q ∨ k = q + 1 := by omega
  · rw [add_sub_cancel_left, abs_of_nonneg hfrac0, htwice.1, htwice.2] at h
    exact if_pos (by tauto)
  · have hneg : (q : ℚ) + r / d - (q + 1 : ℕ) = -(1 - r / d) := by
      push_cast
      ring
    rw [hneg, abs_neg, abs_of_pos (by linarith)] at h
    refine if_neg ?_
    rintro (hlt | ⟨heq, heven⟩)
    · have := htwice.1.mpr hlt
      rcases h with h | ⟨-, h⟩ <;> linarith
    · have := htwice.2.mpr heq
      rcases h with h | ⟨hk, -⟩
      · linarith
      · omega

theorem le_roundDiv (n d : ℕ) : n / d ≤ roundDiv n d := by
  unfold roundDiv
  dsimp only
  split_ifs <;> omega

variable {num den : ℕ} {e : ℤ}

theorem shiftLeft_cast (n : ℕ) (k : ℤ) : ((n <<< k.toNat : ℕ) : ℚ) = n * 2 ^ k.toNat := by
  rw [Nat.shiftLeft_eq]
  push_cast
  rfl

theorem zpow_split {b : ℚ} (hb : b ≠ 0) (e : ℤ) : b ^ e = b ^ e.toNat / b ^ (-e).toNat := by
  rw [← zpow_natCast, ← zpow_natCast, ← zpow_sub₀ hb]
  congr 1
  omega

/-- A quotient on the scale of a power of two. -/
theorem scale_cast (num den : ℕ) (e : ℤ) :
    ((scale num den e).1 : ℚ) / (scale num den e).2 = num / den / 2 ^ e := by
  unfold scale
  dsimp only
  rw [shiftLeft_cast, shiftLeft_cast, zpow_split (by norm_num) e]
  field_simp

theorem scale_pos (hd : 0 < den) (num : ℕ) (e : ℤ) : 0 < (scale num den e).2 := by
  unfold scale
  dsimp only
  rw [Nat.shiftLeft_eq]
  positivity

theorem div_lt_iff_cast {n d k : ℕ} (hd : 0 < d) : n / d < k ↔ (n : ℚ) / d < k := by
  have hdq : (0 : ℚ) < d := by exact_mod_cast hd
  rw [Nat.div_lt_iff_lt_mul hd, div_lt_iff₀ hdq]
  norm_cast

theorem le_div_iff_cast {n d k : ℕ} (hd : 0 < d) : k ≤ n / d ↔ (k : ℚ) ≤ (n : ℚ) / d := by
  have hdq : (0 : ℚ) < d := by exact_mod_cast hd
  rw [Nat.le_div_iff_mul_le hd, le_div_iff₀ hdq]
  norm_cast

/-- The exponent that is chosen gives a quotient 53 binary digits, or is the least one. -/
structure InBinade (x : ℚ) (e : ℤ) : Prop where
  min_le : minExponent ≤ e
  lt : x < 2 ^ 53 * 2 ^ e
  full : e = minExponent ∨ 2 ^ 52 * 2 ^ e ≤ x

theorem InBinade.unique {x : ℚ} {e e' : ℤ} (h : InBinade x e) (h' : InBinade x e') : e = e' := by
  have hstep : ∀ {e e' : ℤ}, InBinade x e → InBinade x e' → e ≤ e' := by
    intro e e' h h'
    rcases h.full with hmin | hfull
    · rw [hmin]
      exact h'.min_le
    · have hlt : (2 : ℚ) ^ e < 2 ^ (e' + 1) := by
        rw [zpow_add_one₀ (by norm_num)]
        have := hfull.trans_lt h'.lt
        linarith
      have := (zpow_lt_zpow_iff_right₀ (by norm_num)).mp hlt
      omega
  exact le_antisymm (hstep h h') (hstep h' h)

theorem inBinade_exponentFor (hn : num ≠ 0) (hd : 0 < den) :
    InBinade ((num : ℚ) / den) (exponentFor num den) := by
  have hdq : (0 : ℚ) < den := by exact_mod_cast hd
  have hnum : (2 : ℚ) ^ num.log2 ≤ num ∧ (num : ℚ) < 2 ^ (num.log2 + 1) := by
    exact_mod_cast And.intro (Nat.log2_self_le hn) Nat.lt_log2_self
  have hden : (2 : ℚ) ^ den.log2 ≤ den ∧ (den : ℚ) < 2 ^ (den.log2 + 1) := by
    exact_mod_cast And.intro (Nat.log2_self_le hd.ne') Nat.lt_log2_self
  unfold exponentFor
  dsimp only
  generalize hlow : (num.log2 : ℤ) - den.log2 - 53 = low
  have hscale : (2 : ℚ) ^ low * 2 ^ den.log2 * 2 ^ 53 = 2 ^ num.log2 := by
    rw [← zpow_natCast, ← zpow_natCast, ← zpow_natCast, ← zpow_add₀ two_ne_zero,
      ← zpow_add₀ two_ne_zero]
    congr 1
    omega
  have hpos : (0 : ℚ) < 2 ^ low := by positivity
  have hbelow : 2 ^ 52 * 2 ^ low ≤ (num : ℚ) / den := by
    rw [le_div_iff₀ hdq]
    calc (2 : ℚ) ^ 52 * 2 ^ low * den
        ≤ 2 ^ 52 * 2 ^ low * 2 ^ (den.log2 + 1) :=
          mul_le_mul_of_nonneg_left hden.2.le (by positivity)
      _ = 2 ^ num.log2 := by rw [← hscale]; ring
      _ ≤ num := hnum.1
  have habove : (num : ℚ) / den < 2 ^ 54 * 2 ^ low := by
    rw [div_lt_iff₀ hdq]
    calc (num : ℚ) < 2 ^ (num.log2 + 1) := hnum.2
      _ = 2 ^ 54 * 2 ^ low * 2 ^ den.log2 := by rw [pow_succ, ← hscale]; ring
      _ ≤ 2 ^ 54 * 2 ^ low * den := mul_le_mul_of_nonneg_left hden.1 (by positivity)
  have htest : (scale num den low).1 / (scale num den low).2 < mantissaBound ↔
      (num : ℚ) / den < 2 ^ 53 * 2 ^ low := by
    rw [div_lt_iff_cast (scale_pos hd num low), scale_cast, div_lt_iff₀ (by positivity)]
    norm_num [mantissaBound]
  simp only [htest]
  generalize (num : ℚ) / den = x at hbelow habove
  have hraise : ∀ e : ℤ, x < 2 ^ 53 * 2 ^ e → 2 ^ 52 * 2 ^ e ≤ x →
      InBinade x (max minExponent e) := by
    intro e hlt hle
    rcases le_total minExponent e with hmin | hmin
    · rw [max_eq_right hmin]
      exact ⟨hmin, hlt, .inr hle⟩
    · rw [max_eq_left hmin]
      refine ⟨le_rfl, hlt.trans_le ?_, .inl rfl⟩
      gcongr
      exact one_le_two
  split_ifs with hlt
  · exact hraise low hlt hbelow
  · have hnext : (2 : ℚ) ^ (low + 1) = 2 * 2 ^ low := by
      rw [zpow_add_one₀ two_ne_zero, mul_comm]
    refine hraise (low + 1) ?_ ?_ <;> rw [hnext] <;> linarith

/-- How far the numbers that are read as a mantissa and an exponent lie below the mantissa. The gap
below a power of two is half as wide. -/
def reachBelow (m : ℕ) (e : ℤ) : ℚ :=
  if m = mantissaBound / 2 ∧ minExponent < e then 1 / 4 else 1 / 2

/-- The numbers that are read as `m · 2 ^ e`, of which an even mantissa takes both ends. -/
def RoundsTo (x : ℚ) (m : ℕ) (e : ℤ) : Prop :=
  if m % 2 = 0 then (m - reachBelow m e) * 2 ^ e ≤ x ∧ x ≤ (m + 1 / 2) * 2 ^ e
  else (m - reachBelow m e) * 2 ^ e < x ∧ x < (m + 1 / 2) * 2 ^ e

/-- Mantissas and exponents of which each finite number has only one. -/
structure Canonical (m : ℕ) (e : ℤ) : Prop where
  lt_bound : m < 2 ^ 53
  min_le : minExponent ≤ e
  le_max : e ≤ maxExponent
  full : e = minExponent ∨ 2 ^ 52 ≤ m

theorem pack_of_canonical {m : ℕ} (h : Canonical m e) (negative : Bool) :
    pack negative m e = .finite negative m e := by
  have hne : m ≠ mantissaBound := h.lt_bound.ne
  unfold pack
  rw [if_neg hne]
  exact if_pos h.le_max

theorem reachBelow_le (m : ℕ) (e : ℤ) : 1 / 4 ≤ reachBelow m e ∧ reachBelow m e ≤ 1 / 2 := by
  unfold reachBelow
  split_ifs <;> norm_num

variable {x : ℚ} {m : ℕ}

/-- The interval on the scale of its exponent. -/
theorem roundsTo_iff : RoundsTo x m e ↔
    m - reachBelow m e ≤ x / 2 ^ e ∧ x / 2 ^ e ≤ m + 1 / 2 ∧
      (m % 2 = 0 ∨ x / 2 ^ e ≠ m - reachBelow m e ∧ x / 2 ^ e ≠ m + 1 / 2) := by
  have hpos : (0 : ℚ) < 2 ^ e := by positivity
  unfold RoundsTo
  rw [← le_div_iff₀ hpos, ← div_le_iff₀ hpos, ← lt_div_iff₀ hpos, ← div_lt_iff₀ hpos]
  split_ifs with heven
  · simp [heven]
  · simp only [heven, false_or, lt_iff_le_and_ne]
    tauto

theorem RoundsTo.half_le (hm : 0 < m) (h : RoundsTo x m e) : 2 ^ e / 2 ≤ x := by
  have hpos : (0 : ℚ) < 2 ^ e := by positivity
  have hbelow := (reachBelow_le m e).2
  have hm1 : (1 : ℚ) ≤ m := by exact_mod_cast hm
  have hle := (roundsTo_iff.mp h).1
  rw [le_div_iff₀ hpos] at hle
  nlinarith

theorem RoundsTo.ne_zero {digits : ℕ} {p : ℤ} (hm : 0 < m)
    (h : RoundsTo (digits * 10 ^ p) m e) : digits ≠ 0 := by
  rintro rfl
  have hle := h.half_le hm
  rw [Nat.cast_zero, zero_mul] at hle
  exact absurd hle (not_le.mpr (by positivity))

theorem RoundsTo.lt (hc : Canonical m e) (h : RoundsTo x m e) : x < 2 ^ 53 * 2 ^ e := by
  have hpos : (0 : ℚ) < 2 ^ e := by positivity
  have hm : (m : ℚ) + 1 ≤ 2 ^ 53 := by exact_mod_cast hc.lt_bound
  rw [← div_lt_iff₀ hpos]
  linarith [(roundsTo_iff.mp h).2.1]

/-- At the least exponent, and from the least full mantissa on, the exponent is read off. -/
theorem RoundsTo.inBinade (hc : Canonical m e) (h : RoundsTo x m e)
    (hfull : e = minExponent ∨ 2 ^ 52 * 2 ^ e ≤ x) : InBinade x e :=
  ⟨hc.min_le, h.lt hc, hfull⟩

/-- Just below a power of two the exponent is one less, and the mantissa is rounded up to the next
power. -/
theorem RoundsTo.of_lt (hc : Canonical m e) (h : RoundsTo x m e) (he : e ≠ minExponent)
    (hlt : x < 2 ^ 52 * 2 ^ e) :
    m = 2 ^ 52 ∧ InBinade x (e - 1) ∧ |x / 2 ^ (e - 1) - (2 ^ 53 : ℕ)| ≤ 1 / 2 := by
  have hpos : (0 : ℚ) < 2 ^ e := by positivity
  have hmin : minExponent < e := lt_of_le_of_ne hc.min_le he.symm
  have hfull : 2 ^ 52 ≤ m := hc.full.resolve_left he
  obtain ⟨hle, -, -⟩ := roundsTo_iff.mp h
  rw [← div_lt_iff₀ hpos] at hlt
  have hm : m = 2 ^ 52 := by
    have hm : (m : ℚ) < 2 ^ 52 + 1 := by linarith [(reachBelow_le m e).2]
    have hm : m < 2 ^ 52 + 1 := by exact_mod_cast hm
    omega
  have hbelow : reachBelow m e = 1 / 4 := if_pos ⟨hm, hmin⟩
  rw [hbelow, hm] at hle
  have hhalf : (2 : ℚ) ^ e = 2 ^ (e - 1) * 2 := by
    rw [← zpow_add_one₀ two_ne_zero, sub_add_cancel]
  have hdouble : x / 2 ^ (e - 1) = 2 * (x / 2 ^ e) := by
    rw [hhalf]
    field_simp
  have hpos' : (0 : ℚ) < 2 ^ (e - 1) := by positivity
  push_cast at hle
  refine ⟨hm, ⟨by omega, ?_, .inr ?_⟩, ?_⟩
  · rw [← div_lt_iff₀ hpos', hdouble]
    linarith
  · rw [← le_div_iff₀ hpos', hdouble]
    linarith
  · rw [hdouble, abs_le]
    push_cast
    constructor <;> linarith

/-- A quotient in the interval of a number is read as that number. -/
theorem nearest_eq (hn : num ≠ 0) (hd : 0 < den) (hc : Canonical m e)
    (h : RoundsTo ((num : ℚ) / den) m e) (negative : Bool) :
    nearest negative num den = .finite negative m e := by
  have hread : ∀ k : ℕ, ∀ e', InBinade ((num : ℚ) / den) e' →
      |(num : ℚ) / den / 2 ^ e' - k| ≤ 1 / 2 →
      (k % 2 = 0 ∨ |(num : ℚ) / den / 2 ^ e' - k| ≠ 1 / 2) →
      nearest negative num den = pack negative k e' := by
    intro k e' hfits hle hne
    have he : exponentFor num den = e' := (inBinade_exponentFor hn hd).unique hfits
    unfold nearest
    rw [if_neg hn, he]
    dsimp only
    rw [roundDiv_eq (k := k) (scale_pos hd num e')]
    rw [scale_cast]
    rcases hle.lt_or_eq with hlt | heq
    · exact .inl hlt
    · exact .inr ⟨hne.resolve_right (not_not.mpr heq), heq⟩
  generalize (num : ℚ) / den = x at *
  by_cases hfull : e = minExponent ∨ 2 ^ 52 * 2 ^ e ≤ x
  · obtain ⟨hle, hle', hends⟩ := roundsTo_iff.mp h
    have hbelow := (reachBelow_le m e).2
    rw [hread m e (h.inBinade hc hfull), pack_of_canonical hc]
    · rw [abs_le]
      constructor <;> linarith
    · refine hends.imp_right fun hends habs => ?_
      rcases eq_or_eq_neg_of_abs_eq habs with heq | heq
      · exact hends.2 (by linarith)
      · exact hends.1 (by linarith)
  · obtain ⟨he, hlt⟩ := not_or.mp hfull
    obtain ⟨rfl, hbinade, habs⟩ := h.of_lt hc he (not_le.mp hlt)
    rw [hread (2 ^ 53) (e - 1) hbinade habs (.inl rfl)]
    have hbound : 2 ^ 53 = mantissaBound := rfl
    unfold pack
    rw [if_pos hbound]
    dsimp only
    rw [sub_add_cancel]
    exact if_pos hc.le_max

/-- A finite number that rounding can give, or none that is finite. -/
def IsCanonical : Double → Prop
  | .finite _ m e => Canonical m e
  | _ => True

theorem isCanonical_zero (negative : Bool) : IsCanonical (.finite negative 0 minExponent) :=
  ⟨by decide, le_rfl, by decide, .inl rfl⟩

theorem isCanonical_pack (negative : Bool) (hm : m ≤ 2 ^ 53) (hmin : minExponent ≤ e)
    (hfull : e = minExponent ∨ 2 ^ 52 ≤ m) : IsCanonical (pack negative m e) := by
  unfold pack
  dsimp only
  split_ifs with hb he he
  · subst hb
    exact ⟨show mantissaBound / 2 < _ by decide, by omega, he,
      .inr (show 2 ^ 52 ≤ mantissaBound / 2 by decide)⟩
  · trivial
  · exact ⟨lt_of_le_of_ne hm hb, hmin, he, hfull⟩
  · trivial

theorem isCanonical_nearest (negative : Bool) (num : ℕ) (hd : 0 < den) :
    IsCanonical (nearest negative num den) := by
  unfold nearest
  split_ifs with hn
  · exact isCanonical_zero negative
  · obtain ⟨hmin, hlt, hfull⟩ := inBinade_exponentFor hn hd
    dsimp only
    generalize exponentFor num den = e at *
    have hpos : (0 : ℚ) < 2 ^ e := by positivity
    have hd' := scale_pos hd num e
    have hquot := scale_cast num den e
    have hle := roundDiv_le (scale num den e).1 (scale num den e).2
    have hge := le_roundDiv (scale num den e).1 (scale num den e).2
    have hupper : (scale num den e).1 / (scale num den e).2 < 2 ^ 53 := by
      rw [div_lt_iff_cast hd', hquot, div_lt_iff₀ hpos]
      exact_mod_cast hlt
    refine isCanonical_pack negative (by omega) hmin (hfull.imp_right fun hfull => ?_)
    have hlower : 2 ^ 52 ≤ (scale num den e).1 / (scale num den e).2 := by
      rw [le_div_iff_cast hd', hquot, le_div_iff₀ hpos]
      exact_mod_cast hfull
    omega

theorem isCanonical_ofDecimal (negative : Bool) (digits : ℕ) (exponent : ℤ) :
    IsCanonical (ofDecimal negative digits exponent) := by
  unfold ofDecimal
  dsimp only
  split_ifs
  · exact isCanonical_zero negative
  · trivial
  · exact isCanonical_zero negative
  · exact isCanonical_nearest negative _ (Nat.pow_pos (by omega))

theorem pow_length_toDigits {n : ℕ} (hn : n ≠ 0) :
    10 ^ ((Nat.toDigits 10 n).length - 1) ≤ n ∧ n < 10 ^ (Nat.toDigits 10 n).length := by
  have hpos : 0 < (Nat.toDigits 10 n).length := List.length_pos_iff.mpr Nat.toDigits_ne_nil
  generalize hlen : (Nat.toDigits 10 n).length = k at hpos
  constructor
  · by_cases hk : k = 1
    · rw [hk]
      exact Nat.pos_of_ne_zero hn
    · refine not_lt.mp fun hlt => ?_
      have := (Nat.length_toDigits_le_iff (by omega) (by omega)).mpr hlt
      omega
  · exact (Nat.length_toDigits_le_iff (by omega) hpos).mp hlen.le

/-- The powers of ten between which a decimal lies. -/
theorem decimal_bounds {n : ℕ} (hn : n ≠ 0) (p : ℤ) :
    (10 : ℚ) ^ (p + (Nat.toDigits 10 n).length - 1) ≤ n * 10 ^ p ∧
      n * (10 : ℚ) ^ p < 10 ^ (p + (Nat.toDigits 10 n).length) := by
  have hpos : 0 < (Nat.toDigits 10 n).length := List.length_pos_iff.mpr Nat.toDigits_ne_nil
  obtain ⟨hle, hlt⟩ := pow_length_toDigits hn
  generalize (Nat.toDigits 10 n).length = k at hle hlt hpos
  have hp : (0 : ℚ) < 10 ^ p := by positivity
  constructor
  · have hk : p + k - 1 = (k - 1 : ℕ) + p := by omega
    rw [hk, zpow_add₀ (by norm_num), zpow_natCast]
    exact mul_le_mul_of_nonneg_right (by exact_mod_cast hle) hp.le
  · rw [add_comm, zpow_add₀ (by norm_num), zpow_natCast]
    exact mul_lt_mul_of_pos_right (by exact_mod_cast hlt) hp

/-- Ten is more than three powers of two. -/
theorem two_zpow_le (k : ℕ) : (2 : ℚ) ^ (3 * k : ℤ) ≤ 10 ^ (k : ℤ) := by
  rw [zpow_mul, zpow_natCast, zpow_natCast]
  exact pow_le_pow_left₀ (by positivity) (by norm_num) k

/-- A decimal in the interval of a number is read as that number. -/
theorem ofDecimal_eq {digits : ℕ} {exponent : ℤ} (hc : Canonical m e) (hm : 0 < m)
    (h : RoundsTo (digits * 10 ^ exponent) m e) (negative : Bool) :
    ofDecimal negative digits exponent = .finite negative m e := by
  have hlow : (2 : ℚ) ^ (-1075 : ℤ) ≤ digits * 10 ^ exponent := by
    refine le_trans ?_ (h.half_le hm)
    rw [div_eq_mul_inv, ← zpow_sub_one₀ two_ne_zero]
    have hmin := hc.min_le
    unfold minExponent at hmin
    exact zpow_le_zpow_right₀ one_le_two (by omega)
  have hhigh : digits * (10 : ℚ) ^ exponent < 2 ^ (1024 : ℤ) := by
    refine (h.lt hc).trans_le ?_
    rw [← zpow_natCast, ← zpow_add₀ two_ne_zero]
    have hmax := hc.le_max
    unfold maxExponent at hmax
    exact zpow_le_zpow_right₀ one_le_two (by omega)
  have hdigits : digits ≠ 0 := h.ne_zero hm
  obtain ⟨hle, hlt⟩ := decimal_bounds hdigits exponent
  have hlarge : ¬ 400 < exponent + (Nat.toDigits 10 digits).length := by
    intro hk
    have hten : (10 : ℚ) ^ (400 : ℤ) ≤ 10 ^ (exponent + (Nat.toDigits 10 digits).length - 1) :=
      zpow_le_zpow_right₀ (by norm_num) (by omega)
    have htwo : (2 : ℚ) ^ (1024 : ℤ) ≤ 10 ^ (400 : ℤ) :=
      (zpow_le_zpow_right₀ one_le_two (by norm_num)).trans (two_zpow_le 400)
    exact absurd ((hten.trans hle).trans_lt hhigh) (not_lt.mpr htwo)
  have hsmall : ¬ exponent + (Nat.toDigits 10 digits).length < -400 := by
    intro hk
    have hten : (10 : ℚ) ^ (exponent + (Nat.toDigits 10 digits).length) ≤ 10 ^ (-401 : ℤ) :=
      zpow_le_zpow_right₀ (by norm_num) (by omega)
    have htwo : (10 : ℚ) ^ (-401 : ℤ) ≤ 2 ^ (-1075 : ℤ) := by
      rw [zpow_neg, zpow_neg]
      refine inv_anti₀ (by positivity) ?_
      exact (zpow_le_zpow_right₀ one_le_two (by norm_num)).trans (two_zpow_le 401)
    exact absurd (hlow.trans_lt (hlt.trans_le hten)) (not_lt.mpr htwo)
  unfold ofDecimal
  dsimp only
  rw [if_neg hdigits, if_neg hlarge, if_neg hsmall]
  refine nearest_eq ?_ (Nat.pow_pos (by omega)) hc ?_ negative
  · exact Nat.mul_ne_zero hdigits (Nat.pow_pos (by omega)).ne'
  · rw [zpow_split (by norm_num), ← mul_div_assoc] at h
    simp only [Nat.pow_eq]
    push_cast
    exact h

end FieldRules.Double
