import FieldRules.Double.Shortest
import FieldRules.Proofs.Double.Rounding

/-! The digits that are written for a number read back as it. Seventeen are always enough, and among
fewer only those are taken that lie in its interval. -/
namespace FieldRules.Double

variable {m digits x : ℕ} {e p q : ℤ} {d : Decimal}

/-- A decimal and a multiple of a power of two compare as they do on one scale. -/
theorem onOneScale_cast (digits : ℕ) (p : ℤ) (x : ℕ) (e : ℤ) : ∃ c : ℚ, 0 < c ∧
    ((onOneScale digits p x e).1 : ℚ) = digits * 10 ^ p * c ∧
    ((onOneScale digits p x e).2 : ℚ) = x * 2 ^ e * c := by
  refine ⟨10 ^ (-p).toNat * 2 ^ (-e).toNat, by positivity, ?_, ?_⟩
  · rw [zpow_split (by norm_num) p]
    simp only [onOneScale, Nat.pow_eq]
    push_cast
    field_simp
  · rw [zpow_split (by norm_num) e]
    simp only [onOneScale, Nat.pow_eq]
    push_cast
    field_simp

theorem onOneScale_le_iff : (onOneScale digits p x e).1 ≤ (onOneScale digits p x e).2 ↔
    (digits : ℚ) * 10 ^ p ≤ x * 2 ^ e := by
  obtain ⟨c, hc, h, h'⟩ := onOneScale_cast digits p x e
  rw [← Nat.cast_le (α := ℚ), h, h', mul_le_mul_iff_left₀ hc]

theorem le_onOneScale_iff : (onOneScale digits p x e).2 ≤ (onOneScale digits p x e).1 ↔
    (x : ℚ) * 2 ^ e ≤ digits * 10 ^ p := by
  obtain ⟨c, hc, h, h'⟩ := onOneScale_cast digits p x e
  rw [← Nat.cast_le (α := ℚ), h, h', mul_le_mul_iff_left₀ hc]

/-- The test of a decimal is whether it lies in the interval of the number. -/
theorem readsAs_iff (hm : 0 < m) :
    d.readsAs m e = true ↔ RoundsTo (d.digits * 10 ^ d.exponent) m e := by
  have hquarter : ∀ n : ℕ, ∀ r : ℚ, (n : ℚ) = 4 * r → (n : ℚ) * 2 ^ (e - 2) = r * 2 ^ e := by
    intro n r hn
    rw [hn, zpow_sub₀ two_ne_zero]
    ring
  have hlow : ((if m = mantissaBound / 2 ∧ minExponent < e then 4 * m - 1 else 4 * m - 2 : ℕ)
      : ℚ) * 2 ^ (e - 2) = (m - reachBelow m e) * 2 ^ e := by
    refine hquarter _ _ ?_
    unfold reachBelow
    split_ifs
    · rw [Nat.cast_sub (by omega)]
      push_cast
      ring
    · rw [Nat.cast_sub (by omega)]
      push_cast
      ring
  have hhigh : ((4 * m + 2 : ℕ) : ℚ) * 2 ^ (e - 2) = (m + 1 / 2) * 2 ^ e := by
    refine hquarter _ _ ?_
    push_cast
    ring
  unfold Decimal.readsAs RoundsTo
  dsimp only
  generalize (if m = mantissaBound / 2 ∧ minExponent < e then 4 * m - 1 else 4 * m - 2) = low
    at hlow
  split_ifs with heven
  · simp only [Bool.and_eq_true, decide_eq_true_eq]
    rw [le_onOneScale_iff, onOneScale_le_iff, hlow, hhigh]
  · simp only [Bool.and_eq_true, decide_eq_true_eq]
    rw [← not_le, ← not_le, onOneScale_le_iff, le_onOneScale_iff, hlow, hhigh, not_le, not_le]

/-- Whichever neighbour is chosen reads back. -/
theorem readsAs_of_onGrid? (h : onGrid? m e p = some d) : d.readsAs m e = true := by
  unfold onGrid? at h
  dsimp only at h
  split at h
  · rename_i hbelow habove
    cases h
    split_ifs
    · exact hbelow
    · exact habove
  · rename_i hbelow _
    cases h
    exact hbelow
  · rename_i _ habove
    cases h
    exact habove
  · cases h

theorem onGrid?_ne_none {k : ℕ} (hd : d.exponent = p)
    (hk : (onOneScale 1 p m e).2 / (onOneScale 1 p m e).1 = k)
    (hnear : d.digits = k ∨ d.digits = k + 1) (h : d.readsAs m e = true) :
    ∃ d', onGrid? m e p = some d' := by
  obtain ⟨digits, exponent⟩ := d
  dsimp only at hd hnear
  subst hd
  unfold onGrid?
  dsimp only
  rw [hk]
  rcases hnear with rfl | rfl
  · rw [h]
    cases (Decimal.readsAs ⟨digits + 1, exponent⟩ m e) <;> exact ⟨_, rfl⟩
  · rw [h]
    cases (Decimal.readsAs ⟨k, exponent⟩ m e) <;> exact ⟨_, rfl⟩

theorem roundsTo_of_lt {x : ℚ} (h : (m - reachBelow m e) * 2 ^ e < x)
    (h' : x < (m + 1 / 2) * 2 ^ e) : RoundsTo x m e := by
  unfold RoundsTo
  split_ifs
  · exact ⟨h.le, h'.le⟩
  · exact ⟨h, h'⟩

/-- A grid on which a number has seventeen digits is finer than its interval is wide. -/
theorem zpow_lt_of_seventeen (hc : Canonical m e) (hfine : (10 : ℚ) ^ (p + 16) ≤ m * 2 ^ e) :
    (10 : ℚ) ^ p < (reachBelow m e + 1 / 2) * 2 ^ e := by
  have hpos : (0 : ℚ) < 2 ^ e := by positivity
  rw [zpow_add₀ (by norm_num)] at hfine
  norm_num at hfine
  unfold reachBelow
  split_ifs with hm
  · have hm : (m : ℚ) = 2 ^ 52 := by
      rw [hm.1]
      norm_num [mantissaBound]
    rw [hm] at hfine
    linarith
  · have hm : (m : ℚ) < 2 ^ 53 := by exact_mod_cast hc.lt_bound
    nlinarith

/-- On a grid with seventeen digits one of the neighbours reads back. -/
theorem exists_onGrid? (hc : Canonical m e) (hm : 0 < m)
    (hfine : (10 : ℚ) ^ (p + 16) ≤ m * 2 ^ e) : ∃ d, onGrid? m e p = some d := by
  have hpos : (0 : ℚ) < 2 ^ e := by positivity
  have hunit : (0 : ℚ) < 10 ^ p := by positivity
  have hwidth := zpow_lt_of_seventeen hc hfine
  have hbelow := reachBelow_le m e
  obtain ⟨c, hcpos, hfirst, hsecond⟩ := onOneScale_cast 1 p m e
  rw [Nat.cast_one, one_mul] at hfirst
  have hdpos : 0 < (onOneScale 1 p m e).1 := by
    have : (0 : ℚ) < (onOneScale 1 p m e).1 := by
      rw [hfirst]
      positivity
    exact_mod_cast this
  generalize hk : (onOneScale 1 p m e).2 / (onOneScale 1 p m e).1 = k
  have hquot : ((onOneScale 1 p m e).2 : ℚ) / (onOneScale 1 p m e).1 = m * 2 ^ e / 10 ^ p := by
    rw [hfirst, hsecond]
    field_simp
  have hle : (k : ℚ) * 10 ^ p ≤ m * 2 ^ e := by
    rw [← le_div_iff₀ hunit, ← hquot, ← le_div_iff_cast hdpos, hk]
  have hlt : m * 2 ^ e < ((k + 1 : ℕ) : ℚ) * 10 ^ p := by
    rw [← div_lt_iff₀ hunit, ← hquot, ← div_lt_iff_cast hdpos, hk]
    omega
  push_cast at hlt
  by_cases hnear : (m - reachBelow m e) * 2 ^ e < k * 10 ^ p
  · refine onGrid?_ne_none (d := ⟨k, p⟩) rfl hk (.inl rfl) ((readsAs_iff hm).mpr ?_)
    exact roundsTo_of_lt hnear (by dsimp only; linarith)
  · refine onGrid?_ne_none (d := ⟨k + 1, p⟩) rfl hk (.inr rfl) ((readsAs_iff hm).mpr ?_)
    refine roundsTo_of_lt ?_ ?_ <;> push_cast
    · nlinarith
    · linarith

theorem readsAs_firstGrid {tries k : ℕ} (hk : k < tries)
    (h : ∃ d, onGrid? m e (p - k) = some d) : (firstGrid m e tries p).readsAs m e = true := by
  induction tries generalizing p k with
  | zero => omega
  | succ tries ih =>
    unfold firstGrid
    cases hgrid : onGrid? m e p with
    | some d => exact readsAs_of_onGrid? hgrid
    | none =>
      cases k with
      | zero =>
        obtain ⟨d, hd⟩ := h
        rw [Nat.cast_zero, sub_zero, hgrid] at hd
        cases hd
      | succ k =>
        have hp : p - (k + 1 : ℕ) = p - 1 - k := by omega
        rw [hp] at h
        exact ih (by omega) h

/-- A number lies above the power of ten below its size. -/
theorem pow_decimalSize_le (hm : 0 < m) (he : minExponent ≤ e) :
    (10 : ℚ) ^ (decimalSize m e - 1) ≤ m * 2 ^ e := by
  obtain ⟨k, hk⟩ : ∃ k : ℕ, k = 400 := ⟨_, rfl⟩
  have hexp : (max e 0).toNat = e.toNat := by omega
  have hscale : (-(-400 : ℤ)).toNat = k := hk.symm
  have hsize : (400 : ℤ) = k := by omega
  unfold decimalSize onOneScale
  simp only [Nat.pow_eq, hexp, hscale]
  rw [hsize]
  generalize hn : m * 2 ^ e.toNat * 10 ^ k / 2 ^ (-e).toNat = n
  have hfloor : (n : ℚ) ≤ m * 2 ^ e * 10 ^ k := by
    rw [← hn, zpow_split two_ne_zero e]
    refine Nat.cast_div_le.trans_eq ?_
    push_cast
    ring
  have hpos : n ≠ 0 := by
    rw [← hn, ← Nat.pos_iff_ne_zero]
    refine Nat.div_pos ?_ (Nat.two_pow_pos _)
    unfold minExponent at he
    calc 2 ^ (-e).toNat ≤ 2 ^ (3 * k) := Nat.pow_le_pow_right (by omega) (by omega)
      _ = (2 ^ 3) ^ k := Nat.pow_mul 2 3 k
      _ ≤ 10 ^ k := Nat.pow_le_pow_left (by omega) k
      _ ≤ m * 2 ^ e.toNat * 10 ^ k :=
        Nat.le_mul_of_pos_left _ (Nat.mul_pos hm (Nat.two_pow_pos _))
  have hdigits := (decimal_bounds hpos (-k)).1
  rw [zpow_neg, zpow_natCast, ← div_eq_mul_inv] at hdigits
  have hshift : ((Nat.toDigits 10 n).length : ℤ) - k - 1 = -k + (Nat.toDigits 10 n).length - 1 := by
    omega
  rw [hshift]
  refine hdigits.trans ?_
  rw [div_le_iff₀ (by positivity)]
  exact hfloor

/-- The shortest decimal reads back. -/
theorem readsAs_shortest (hc : Canonical m e) (hm : 0 < m) :
    (shortest m e).readsAs m e = true := by
  refine readsAs_firstGrid (k := 16) (by omega) (exists_onGrid? hc hm ?_)
  have hsize : decimalSize m e - 1 - (16 : ℕ) + 16 = decimalSize m e - 1 := by omega
  rw [hsize]
  exact pow_decimalSize_le hm hc.min_le

end FieldRules.Double
