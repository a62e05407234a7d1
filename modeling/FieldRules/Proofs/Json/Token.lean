import FieldRules.Proofs.Json.Quoted
import FieldRules.Proofs.Numeral

/-! Texts that are read as known tokens. A number ends where nothing can go on with it; the other
tokens are read whatever follows them. -/
namespace FieldRules.Json

/-- What may follow a value within a text. -/
def Ends : List Char → Prop
  | [] => True
  | c :: _ => c = ',' ∨ c = ']' ∨ c = '\x7d'

theorem not_isDigit_of_ends {c : Char} {cs : List Char} (h : Ends (c :: cs)) :
    ¬ isDigit c = true := by
  rcases h with rfl | rfl | rfl <;> decide

theorem takeWhile_digits {ds rest : List Char} (hds : ∀ c ∈ ds, isDigit c = true)
    (hrest : Ends rest) :
    (ds ++ rest).takeWhile isDigit = ds ∧ (ds ++ rest).dropWhile isDigit = rest := by
  rw [List.takeWhile_append_of_pos hds, List.dropWhile_append_of_pos hds]
  cases rest with
  | nil => simp
  | cons c cs => simp [not_isDigit_of_ends hrest]

theorem fraction_of_ends {rest : List Char} (h : Ends rest) : fraction rest = ([], rest) := by
  cases rest with
  | nil => rfl
  | cons c cs => rcases h with rfl | rfl | rfl <;> rfl

theorem exponent?_of_ends {rest : List Char} (h : Ends rest) : exponent? rest = none := by
  cases rest with
  | nil => rfl
  | cons c cs => rcases h with rfl | rfl | rfl <;> rfl

theorem wholePart?_toDigits (n : ℕ) {rest : List Char} (h : Ends rest) :
    wholePart? (Nat.toDigits 10 n ++ rest) = some (Nat.toDigits 10 n, rest) := by
  have hall : ∀ c ∈ Nat.toDigits 10 n, isDigit c = true :=
    fun c => Numeral.isDigit_of_mem_toDigits
  have hdigits := takeWhile_digits hall h
  cases hd : Nat.toDigits 10 n with
  | nil => exact absurd hd Nat.toDigits_ne_nil
  | cons c cs =>
    rw [hd] at hdigits
    by_cases hc : c = '0'
    · -- only nought starts with a nought
      have hn : n = 0 := Numeral.eq_zero_of_head? (by rw [hd, hc]; rfl)
      rw [hn] at hd
      cases hd
      rfl
    · have hdigit : isDigit c = true := hall c (by simp [hd])
      rw [List.cons_append] at hdigits ⊢
      rw [wholePart?, if_pos hdigit, hdigits.1, hdigits.2]
      rintro rfl
      exact hc rfl

theorem number?_toDigits (negative : Bool) {n : ℕ} (hn : n < Nat.pow 10 Numeral.maxDigits)
    {rest : List Char} (h : Ends rest) :
    number? negative (Nat.toDigits 10 n ++ rest) =
      some (.int (if negative then -(n : ℤ) else n), rest) := by
  simp [number?, wholePart?_toDigits n h, fraction_of_ends h, exponent?_of_ends h,
    Numeral.readNat_toDigits hn]

theorem word?_eq_none {cs : List Char} (h : ∀ e ∈ words, ¬ e.1.toList <+: cs) :
    word? cs = none := by
  refine List.findSome?_eq_none_iff.mpr fun e he => ?_
  have hafter : after? e.1 cs = none := if_neg (by simpa using h e he)
  dsimp only
  rw [hafter, Option.map_none]

/-- No word starts with a digit, and none with one after a minus sign. -/
theorem word?_digit {c : Char} (h : isDigit c = true) (cs : List Char) :
    word? (c :: cs) = none ∧ word? ('-' :: c :: cs) = none := by
  have hne : 'n' ≠ c ∧ 't' ≠ c ∧ 'f' ≠ c ∧ 'N' ≠ c ∧ 'I' ≠ c ∧ '-' ≠ c := by
    refine ⟨?_, ?_, ?_, ?_, ?_, ?_⟩ <;> (rintro rfl; cases h)
  constructor <;> (apply word?_eq_none; simp [words, hne])

theorem token?_digit {c : Char} (h : isDigit c = true) (cs : List Char) :
    token? (c :: cs) = (number? false (c :: cs)).map fun (v, rest) => (.atom v, rest) := by
  rw [token?]
  · rw [(word?_digit h cs).1]
  all_goals
    intro _ heq
    cases heq
    cases h

theorem token?_minus {c : Char} (h : isDigit c = true) (cs : List Char) :
    token? ('-' :: c :: cs) = (number? true (c :: cs)).map fun (v, rest) => (.atom v, rest) := by
  rw [token?, (word?_digit h cs).2]

theorem token?_chars {i : ℤ} (hi : i.natAbs < Nat.pow 10 Numeral.maxDigits) {rest : List Char}
    (h : Ends rest) : token? (Numeral.chars i ++ rest) = some (.atom (.int i), rest) := by
  unfold Numeral.chars
  have hread := fun negative => number?_toDigits negative hi h
  cases hd : Nat.toDigits 10 i.natAbs with
  | nil => exact absurd hd Nat.toDigits_ne_nil
  | cons c cs =>
    have hc : isDigit c = true :=
      Numeral.isDigit_of_mem_toDigits (hd ▸ List.mem_cons_self)
    rw [hd] at hread
    split_ifs with hneg
    · have hi : -(i.natAbs : ℤ) = i := by omega
      rw [List.cons_append, List.cons_append, token?_minus hc, ← List.cons_append, hread true,
        if_pos rfl, hi]
      rfl
    · have hi : (i.natAbs : ℤ) = i := by omega
      rw [List.cons_append, token?_digit hc, ← List.cons_append, hread false,
        if_neg Bool.false_ne_true, hi]
      rfl

/-- A text is read as these tokens, whatever may follow it. Each token takes a character. -/
structure Spells (cs : List Char) (ts : List Token) : Prop where
  length_le : ts.length ≤ cs.length
  reads : ∀ fuel rest, Ends rest →
    tokensWithin (fuel + ts.length) (cs ++ rest) = (tokensWithin fuel rest).map (ts ++ ·)

theorem token?_space {c : Char} (h : isSpace c = true) (cs : List Char) :
    token? (c :: cs) = none := by
  simp only [isSpace, Bool.or_eq_true, beq_iff_eq] at h
  rcases h with ((rfl | rfl) | rfl) | rfl <;> rfl

theorem tokensWithin_succ {cs rest : List Char} {t : Token} (h : token? cs = some (t, rest))
    (fuel : ℕ) : tokensWithin (fuel + 1) cs = (tokensWithin fuel rest).map (t :: ·) := by
  cases cs with
  | nil => cases h
  | cons c cs =>
    have hc : ¬ isSpace c = true := by
      intro hc
      rw [token?_space hc] at h
      cases h
    rw [tokensWithin, List.dropWhile_cons_of_neg hc]
    dsimp only
    rw [h, Option.bind_eq_bind, Option.bind_some]
    cases tokensWithin fuel rest <;> rfl

namespace Spells

variable {cs ds : List Char} {t : Token} {ts us : List Token}

theorem cons (h : ∀ rest, token? (cs ++ rest) = some (t, rest)) (hds : Spells ds us) :
    Spells (cs ++ ds) (t :: us) where
  length_le := by
    cases cs with
    | nil => cases h []
    | cons c cs =>
      have := hds.length_le
      simp only [List.length_append, List.length_cons]
      omega
  reads fuel rest hrest := by
    have := hds.reads fuel rest hrest
    rw [List.length_cons, ← Nat.add_assoc, List.append_assoc, tokensWithin_succ (h _), this,
      Option.map_map]
    rfl

theorem mark {c : Char} (h : ∀ rest, token? (c :: rest) = some (t, rest)) (hds : Spells ds us) :
    Spells (c :: ds) (t :: us) :=
  cons (show ∀ rest, token? ([c] ++ rest) = some (t, rest) from h) hds

theorem atom (h : ∀ rest, Ends rest → token? (cs ++ rest) = some (t, rest)) : Spells cs [t] where
  length_le := by
    cases cs with
    | nil => cases h [] trivial
    | cons c cs => simp
  reads fuel rest hrest := tokensWithin_succ (h rest hrest) fuel

theorem append (hcs : Spells cs ts) (hds : Spells ds us)
    (hends : ∀ rest, Ends rest → Ends (ds ++ rest)) : Spells (cs ++ ds) (ts ++ us) where
  length_le := by
    have := hcs.length_le
    have := hds.length_le
    simp only [List.length_append]
    omega
  reads fuel rest hrest := by
    have hfuel : fuel + (ts ++ us).length = fuel + us.length + ts.length := by
      simp only [List.length_append]
      omega
    rw [hfuel, List.append_assoc, hcs.reads _ _ (hends rest hrest), hds.reads _ _ hrest,
      Option.map_map]
    congr 1
    funext l
    exact (List.append_assoc ts us l).symm

theorem tokens_eq (h : Spells cs ts) : tokens cs = some ts := by
  have hfuel : cs.length = cs.length - ts.length + ts.length := by
    have := h.length_le
    omega
  have hread := h.reads (cs.length - ts.length) [] trivial
  rw [List.append_nil, ← hfuel] at hread
  rw [tokens, hread]
  cases cs.length - ts.length <;> simp [tokensWithin]

end Spells

end FieldRules.Json
