import FieldRules.Double.Layout
import FieldRules.Proofs.Double.Shortest
import FieldRules.Proofs.Json.RoundTrip
import Mathlib.Data.List.TakeWhile

/-! Numbers of double precision are read back from their texts: the digits are laid out with the
point between them or with an exponent, and either way what is read is a decimal of the same value.
So every value that was read is read again from what is written for it. -/
namespace FieldRules.Json

variable {cs ds rest whole frac : List Char} {c : Char}

/-- Digits of which the first is not a nought. -/
structure Significand (ds : List Char) : Prop where
  ne_nil : ds ≠ []
  isDigit : ∀ c ∈ ds, isDigit c = true
  head_ne : ds.head? ≠ some '0'

theorem takeWhile_isDigit (hds : ∀ c ∈ ds, isDigit c = true)
    (hrest : ∀ c ∈ rest.head?, isDigit c = false) :
    (ds ++ rest).takeWhile isDigit = ds ∧ (ds ++ rest).dropWhile isDigit = rest := by
  rw [List.takeWhile_append_of_pos hds, List.dropWhile_append_of_pos hds]
  cases rest with
  | nil => simp
  | cons c cs =>
    have hc : isDigit c = false := hrest c rfl
    simp [hc]

theorem wholePart?_significand (h : Significand ds) (hrest : ∀ c ∈ rest.head?, isDigit c = false) :
    wholePart? (ds ++ rest) = some (ds, rest) := by
  obtain ⟨htake, hdrop⟩ := takeWhile_isDigit h.isDigit hrest
  obtain ⟨hne, hall, hhead⟩ := h
  cases ds with
  | nil => exact absurd rfl hne
  | cons c ds =>
    rw [List.cons_append] at htake hdrop ⊢
    rw [wholePart?, if_pos (hall c List.mem_cons_self), htake, hdrop]
    rintro rfl
    exact hhead rfl

/-- The whole part of a number: nought or a significand. -/
def Whole (cs : List Char) : Prop := cs = ['0'] ∨ Significand cs

theorem wholePart?_whole (h : Whole whole) (hrest : ∀ c ∈ rest.head?, isDigit c = false) :
    wholePart? (whole ++ rest) = some (whole, rest) := by
  rcases h with rfl | h
  · rfl
  · exact wholePart?_significand h hrest

theorem head_isDigit_of_ends (h : Ends rest) : ∀ c ∈ rest.head?, isDigit c = false := by
  cases rest with
  | nil => simp
  | cons c cs => simpa using not_isDigit_of_ends h

/-- A fraction with its point, or nothing. -/
def point (frac : List Char) : List Char :=
  if frac.isEmpty then [] else '.' :: frac

theorem fraction_point (hfrac : ∀ c ∈ frac, isDigit c = true)
    (hrest : ∀ c ∈ rest.head?, isDigit c = false ∧ c ≠ '.') :
    fraction (point frac ++ rest) = (frac, rest) := by
  obtain ⟨htake, hdrop⟩ := takeWhile_isDigit hfrac fun c hc => (hrest c hc).1
  cases frac with
  | nil =>
    cases rest with
    | nil => rfl
    | cons c cs =>
      have hc : c ≠ '.' := (hrest c rfl).2
      simp [point, fraction, hc]
  | cons d frac =>
    rw [List.cons_append] at htake hdrop
    simp [point, fraction, htake, hdrop]

theorem point_head (frac : List Char) (hrest : ∀ c ∈ rest.head?, isDigit c = false) :
    ∀ c ∈ (point frac ++ rest).head?, isDigit c = false := by
  cases frac with
  | nil => exact hrest
  | cons d frac => simp [point, isDigit]

/-- A number with a fraction. -/
theorem number?_fraction (negative : Bool) (hwhole : Whole whole) (hne : frac ≠ [])
    (hfrac : ∀ c ∈ frac, isDigit c = true) (hrest : Ends rest) :
    number? negative (whole ++ (point frac ++ rest)) = some (.double
      (.ofDecimal negative (Numeral.value (whole ++ frac)) (-frac.length)), rest) := by
  have hhead : ∀ c ∈ rest.head?, isDigit c = false ∧ c ≠ '.' := by
    cases rest with
    | nil => simp
    | cons c cs => rcases hrest with rfl | rfl | rfl <;> simp [isDigit]
  have hpart := wholePart?_whole hwhole (point_head frac fun c hc => (hhead c hc).1)
  simp [number?, hpart, fraction_point hfrac hhead, exponent?_of_ends hrest, hne]

/-- A power of ten with its sign. -/
def power (sign : Bool) (ds : List Char) : List Char :=
  'e' :: (if sign then '-' else '+') :: ds

theorem exponent?_power (sign : Bool) (hne : ds ≠ []) (hds : ∀ c ∈ ds, isDigit c = true)
    (hrest : Ends rest) : exponent? (power sign ds ++ rest) =
      some ((if sign then -1 else 1 : ℤ) * Numeral.value ds, rest) := by
  obtain ⟨htake, hdrop⟩ := takeWhile_isDigit hds (head_isDigit_of_ends hrest)
  cases sign <;> simp [power, exponent?, htake, hdrop, hne]

/-- A number with an exponent. -/
theorem number?_exponent (negative sign : Bool) (hwhole : Whole whole)
    (hfrac : ∀ c ∈ frac, isDigit c = true) (hne : ds ≠ [])
    (hds : ∀ c ∈ ds, isDigit c = true) (hrest : Ends rest) :
    number? negative (whole ++ (point frac ++ (power sign ds ++ rest))) = some (.double
      (.ofDecimal negative (Numeral.value (whole ++ frac))
        ((if sign then -1 else 1 : ℤ) * Numeral.value ds - frac.length)), rest) := by
  have hhead : ∀ c ∈ (power sign ds ++ rest).head?, isDigit c = false ∧ c ≠ '.' := by
    simp [power, isDigit]
  have hpart := wholePart?_whole hwhole (point_head frac fun c hc => (hhead c hc).1)
  simp [number?, hpart, fraction_point hfrac hhead, exponent?_power sign hne hds hrest]

/-- The digits of a number without the noughts at their end. -/
theorem significand_toDigits {n : ℕ} (hn : n ≠ 0) :
    Significand ((Nat.toDigits 10 n).reverse.dropWhile (· == '0')).reverse ∧
    ∃ k, Nat.toDigits 10 n =
      ((Nat.toDigits 10 n).reverse.dropWhile (· == '0')).reverse ++ List.replicate k '0' := by
  generalize hall : Nat.toDigits 10 n = all
  generalize hds : (all.reverse.dropWhile (· == '0')).reverse = ds
  have hsplit : ∃ k, all = ds ++ List.replicate k '0' := by
    refine ⟨(all.reverse.takeWhile (· == '0')).length, ?_⟩
    have hzeros : all.reverse.takeWhile (· == '0') =
        List.replicate (all.reverse.takeWhile (· == '0')).length '0' :=
      List.eq_replicate_of_mem fun c hc => by simpa using List.mem_takeWhile_imp hc
    rw [← hds, ← List.reverse_replicate, ← hzeros, ← List.reverse_append,
      List.takeWhile_append_dropWhile, List.reverse_reverse]
  refine ⟨?_, hsplit⟩
  obtain ⟨k, hk⟩ := hsplit
  have hvalue : Numeral.value all = n := hall ▸ Numeral.value_toDigits n
  have hne : ds ≠ [] := by
    rintro rfl
    rw [hk, List.nil_append, Numeral.value_replicate_zero] at hvalue
    exact hn hvalue.symm
  refine ⟨hne, fun c hc => ?_, fun hhead => hn ?_⟩
  · exact Numeral.isDigit_of_mem_toDigits (hall ▸ hk ▸ List.mem_append_left _ hc)
  · refine Numeral.eq_zero_of_head? ?_
    rw [hall, hk, List.head?_append_of_ne_nil _ hne, hhead]

theorem isDigit_replicate (k : ℕ) : ∀ c ∈ List.replicate k '0', isDigit c = true := by
  intro c hc
  rw [List.eq_of_mem_replicate hc]
  rfl

theorem point_of_ne_nil (h : frac ≠ []) : point frac = '.' :: frac := by
  unfold point
  rw [if_neg (by simpa using h)]

/-- The digits of a number in front of its point. -/
theorem Significand.take (h : Significand ds) {k : ℕ} (hk : 0 < k) : Significand (ds.take k) where
  ne_nil := by simp [h.ne_nil, hk.ne']
  isDigit c hc := h.isDigit c (List.mem_of_mem_take hc)
  head_ne := by rw [List.head?_take, if_neg hk.ne']; exact h.head_ne

theorem Significand.append (h : Significand ds) (hcs : ∀ c ∈ cs, Json.isDigit c = true) :
    Significand (ds ++ cs) where
  ne_nil := List.append_ne_nil_of_left_ne_nil h.ne_nil cs
  isDigit c hc := (List.mem_append.mp hc).elim (h.isDigit c) (hcs c)
  head_ne := by rw [List.head?_append_of_ne_nil _ h.ne_nil]; exact h.head_ne

/-- A number below one. -/
theorem number?_small (negative : Bool) (h : Significand ds) {pt : ℤ} (hpt : pt ≤ 0)
    (hrest : Ends rest) :
    number? negative (Double.positional ds pt ++ rest) =
      some (.double (.ofDecimal negative (Numeral.value ds) (pt - ds.length)), rest) := by
  have hfrac : ∀ c ∈ List.replicate (-pt).toNat '0' ++ ds, isDigit c = true := fun c hc =>
    (List.mem_append.mp hc).elim (isDigit_replicate _ c) (h.isDigit c)
  have hne : List.replicate (-pt).toNat '0' ++ ds ≠ [] :=
    List.append_ne_nil_of_right_ne_nil _ h.ne_nil
  have hread := number?_fraction negative (.inl rfl) hne hfrac hrest
  have hvalue : Numeral.value (['0'] ++ (List.replicate (-pt).toNat '0' ++ ds)) =
      Numeral.value ds := by
    rw [← List.append_assoc, Numeral.value_append]
    have hzeros := Numeral.value_replicate_zero ((-pt).toNat + 1)
    rw [List.replicate_succ] at hzeros
    rw [List.singleton_append, hzeros, Nat.zero_mul, Nat.zero_add]
  have hexp : -((List.replicate (-pt).toNat '0' ++ ds).length : ℤ) = pt - ds.length := by
    rw [List.length_append, List.length_replicate]
    omega
  rw [hvalue, hexp, point_of_ne_nil hne] at hread
  rw [Double.positional, if_pos hpt]
  simpa using hread

/-- A number of which some digits stand behind the point. -/
theorem number?_broken (negative : Bool) (h : Significand ds) {pt : ℤ} (hpt : 0 < pt)
    (hlt : pt < ds.length) (hrest : Ends rest) :
    number? negative (Double.positional ds pt ++ rest) =
      some (.double (.ofDecimal negative (Numeral.value ds) (pt - ds.length)), rest) := by
  have hzeros : pt.toNat - ds.length = 0 := by omega
  have htake : 0 < pt.toNat := by omega
  have hne : ds.drop pt.toNat ≠ [] := by
    rw [Ne, List.drop_eq_nil_iff]
    omega
  have hread := number?_fraction negative (.inr (h.take htake))
    hne (fun c hc => h.isDigit c (List.mem_of_mem_drop hc)) hrest
  have hexp : -((ds.drop pt.toNat).length : ℤ) = pt - ds.length := by
    rw [List.length_drop]
    omega
  rw [List.take_append_drop, hexp, point_of_ne_nil hne] at hread
  rw [Double.positional, if_neg (by omega), hzeros]
  simpa [hne] using hread

/-- A number without digits behind the point, which is written with a nought there. -/
theorem number?_integral (negative : Bool) (h : Significand ds) {pt : ℤ} (hle : ds.length ≤ pt)
    (hrest : Ends rest) :
    number? negative (Double.positional ds pt ++ rest) = some (.double
      (.ofDecimal negative (Numeral.value ds * 10 ^ (pt.toNat - ds.length + 1)) (-1)), rest) := by
  have hpos : 0 < ds.length := List.length_pos_iff.mpr h.ne_nil
  have hlength : (ds ++ List.replicate (pt.toNat - ds.length) '0').length = pt.toNat := by
    rw [List.length_append, List.length_replicate]
    omega
  have hnought : ∀ c ∈ ['0'], isDigit c = true := by simp [isDigit]
  have hread := number?_fraction negative
    (.inr (h.append (isDigit_replicate (pt.toNat - ds.length)))) (by simp) hnought hrest
  have hvalue : Numeral.value (ds ++ List.replicate (pt.toNat - ds.length) '0' ++ ['0']) =
      Numeral.value ds * 10 ^ (pt.toNat - ds.length + 1) := by
    rw [List.append_assoc, ← List.replicate_succ', Numeral.value_append,
      Numeral.value_replicate_zero, List.length_replicate, Nat.add_zero]
  rw [hvalue] at hread
  rw [Double.positional, if_neg (by omega)]
  dsimp only
  rw [List.take_of_length_le hlength.le, List.drop_of_length_le hlength.le]
  simpa [point] using hread

theorem number?_positional (negative : Bool) (h : Significand ds) (pt : ℤ) (hrest : Ends rest) :
    ∃ n p, number? negative (Double.positional ds pt ++ rest) =
        some (.double (.ofDecimal negative n p), rest) ∧
      (n : ℚ) * 10 ^ p = Numeral.value ds * 10 ^ (pt - ds.length) := by
  rcases le_or_gt pt 0 with hpt | hpt
  · exact ⟨_, _, number?_small negative h hpt hrest, rfl⟩
  · rcases lt_or_ge pt ds.length with hlt | hle
    · exact ⟨_, _, number?_broken negative h hpt hlt hrest, rfl⟩
    · refine ⟨_, _, number?_integral negative h hle hrest, ?_⟩
      have hexp : pt - ds.length = ((pt.toNat - ds.length + 1 : ℕ) : ℤ) + -1 := by omega
      rw [hexp, zpow_add₀ (by norm_num), zpow_natCast]
      push_cast
      ring

theorem number?_scientific (negative : Bool) (h : Significand ds) (width : ℕ) (exponent : ℤ)
    (hrest : Ends rest) :
    number? negative (Double.scientific width ds exponent ++ rest) = some (.double
      (.ofDecimal negative (Numeral.value ds) (exponent + 1 - ds.length)), rest) := by
  have hpos : 0 < ds.length := List.length_pos_iff.mpr h.ne_nil
  generalize hpower : List.replicate (width - (Nat.toDigits 10 exponent.natAbs).length) '0' ++
    Nat.toDigits 10 exponent.natAbs = ps
  have hne : ps ≠ [] := hpower ▸ List.append_ne_nil_of_right_ne_nil _ Nat.toDigits_ne_nil
  have hps : ∀ c ∈ ps, isDigit c = true := fun c hc =>
    (List.mem_append.mp (hpower ▸ hc)).elim (isDigit_replicate _ c) Numeral.isDigit_of_mem_toDigits
  have hvalue : Numeral.value ps = exponent.natAbs := by
    rw [← hpower, Numeral.value_append, Numeral.value_replicate_zero, Numeral.value_toDigits,
      Nat.zero_mul, Nat.zero_add]
  have hfrac : ∀ c ∈ ds.drop 1, isDigit c = true :=
    fun c hc => h.isDigit c (List.mem_of_mem_drop hc)
  have hread := number?_exponent negative (decide (exponent < 0)) (.inr (h.take Nat.one_pos))
    hfrac hne hps hrest
  have hexp : (if decide (exponent < 0) = true then -1 else 1 : ℤ) * (exponent.natAbs : ℕ) -
      (ds.drop 1).length = exponent + 1 - ds.length := by
    rw [List.length_drop]
    split_ifs with hneg <;> simp only [decide_eq_true_eq] at hneg <;> omega
  rw [hvalue, hexp, List.take_append_drop] at hread
  rw [← hread]
  unfold Double.scientific point power
  simp [← hpower]

/-- The digits that are written for a decimal are read as a decimal of the same value. -/
theorem number?_decimal (negative : Bool) {d : Double.Decimal} (hd : d.digits ≠ 0)
    (l : Double.Layout) (hrest : Ends rest) :
    ∃ n p, number? negative (l.decimal d ++ rest) =
        some (.double (.ofDecimal negative n p), rest) ∧
      (n : ℚ) * 10 ^ p = d.digits * 10 ^ d.exponent := by
  obtain ⟨hds, k, hk⟩ := significand_toDigits hd
  unfold Double.Layout.decimal
  dsimp only
  generalize hall : Nat.toDigits 10 d.digits = all at hds hk ⊢
  generalize (all.reverse.dropWhile (· == '0')).reverse = ds at hds hk ⊢
  have hvalue : d.digits = Numeral.value ds * 10 ^ k := by
    rw [← Numeral.value_toDigits d.digits, hall, hk, Numeral.value_append,
      Numeral.value_replicate_zero, List.length_replicate, Nat.add_zero]
  have hsame : (Numeral.value ds : ℚ) * 10 ^ (d.exponent + all.length - ds.length : ℤ) =
      d.digits * 10 ^ d.exponent := by
    have hexp : d.exponent + all.length - ds.length = k + d.exponent := by
      rw [hk, List.length_append, List.length_replicate]
      omega
    rw [hexp, zpow_add₀ (by norm_num), zpow_natCast, hvalue]
    push_cast
    ring
  split_ifs
  · obtain ⟨n, p, hread, hnp⟩ := number?_positional negative hds _ hrest
    exact ⟨n, p, hread, hnp.trans hsame⟩
  · refine ⟨_, _, number?_scientific negative hds _ _ hrest, ?_⟩
    rw [sub_add_cancel]
    exact hsame

/-- A number starts with a digit. -/
theorem head_of_number? {negative : Bool} {r : Value × List Char}
    (h : number? negative cs = some r) : ∃ c ds, cs = c :: ds ∧ isDigit c = true := by
  obtain ⟨p, hp, -⟩ := Option.bind_eq_some_iff.mp h
  unfold wholePart? at hp
  split at hp
  · exact ⟨_, _, rfl, rfl⟩
  · split_ifs at hp with hc
    exact ⟨_, _, rfl, hc⟩
  · cases hp

theorem token?_number {negative : Bool} {v : Value}
    (h : number? negative (cs ++ rest) = some (v, rest)) :
    token? ((if negative then ['-'] else []) ++ cs ++ rest) = some (.atom v, rest) := by
  obtain ⟨c, ds, hcs, hc⟩ := head_of_number? h
  rw [List.append_assoc]
  rw [hcs] at h ⊢
  cases negative with
  | false =>
    rw [if_neg Bool.false_ne_true, List.nil_append, token?_digit hc, h]
    rfl
  | true =>
    rw [if_pos rfl, List.singleton_append, token?_minus hc, h]
    rfl

/-- A number of double precision is read back from its text. -/
theorem token?_numbers {d : Double} (hd : d.IsCanonical) (hrest : Ends rest) :
    token? (numbers.chars d ++ rest) = some (.atom (.double d), rest) := by
  cases d with
  | nan => rfl
  | infinity negative => cases negative <;> rfl
  | finite negative m e =>
    refine token?_number ?_
    by_cases hm : m = 0
    · subst hm
      have he : e = Double.minExponent := hd.full.resolve_right (by omega)
      have hfrac : ∀ c ∈ ['0'], isDigit c = true := by simp [isDigit]
      have hread := number?_fraction negative (.inl rfl) (by simp) hfrac hrest
      rw [if_pos rfl, he]
      exact hread
    · rw [if_neg hm]
      have hpos : 0 < m := Nat.pos_of_ne_zero hm
      have hshort := (Double.readsAs_iff hpos).mp (Double.readsAs_shortest hd hpos)
      obtain ⟨n, p, hread, hnp⟩ := number?_decimal negative (hshort.ne_zero hpos) numbers hrest
      rw [hread, Double.ofDecimal_eq hd hpos (hnp ▸ hshort)]

theorem durable_map {es : List (String × Value)} :
    Durable (.map es) ↔ (Entries.keys es).Nodup ∧ ∀ e ∈ es, Durable e.2 := by
  have hall : DurableEntries es ↔ ∀ e ∈ es, Durable e.2 := by
    induction es with
    | nil => simp [DurableEntries]
    | cons e es ih => simp [DurableEntries, ih]
  rw [Durable, hall]

theorem durable_double {d : Double} (hd : d.IsCanonical) : Durable (.double d) := by
  rw [Durable]
  exact fun _ hrest => token?_numbers hd hrest

theorem hereditary_durable : Hereditary Durable where
  text := durable_text
  word := by
    simp only [words, List.forall_mem_cons, List.not_mem_nil, false_implies, implies_true, and_true]
    exact ⟨trivial, trivial, trivial, durable_double trivial, durable_double trivial,
      durable_double trivial⟩
  int i hi := by rwa [Durable]
  double negative digits exponent :=
    durable_double (Double.isCanonical_ofDecimal negative digits exponent)
  list _ := durable_list.mpr
  map _ hkeys hes := durable_map.mpr ⟨hkeys, hes⟩

theorem durable_decodeList {s : String} {xs : List Value} (h : decodeList s = some xs) :
    ∀ x ∈ xs, Durable x :=
  durable_list.mp (hereditary_durable.decode (decode_of_decodeList h))

end FieldRules.Json
