import FieldRules.Json.Decode
import FieldRules.Json.Encode
import Mathlib.Tactic.SplitIfs

/-! Texts between quotes. Every character is written as its 16-bit units, by themselves or escaped,
and the units make up the character again. -/
namespace FieldRules.Json

theorem hexValue?_digitChar {d : Nat} (h : d < 16) : hexValue? d.digitChar = some d := by
  have hall : ∀ d < 16, hexValue? (Nat.digitChar d) = some d := by decide
  exact hall d h

theorem hex_four {n : Nat} (h : n < 0x10000) : Text.Quoted.hex 4 n =
    [Nat.digitChar (n / 0x1000), Nat.digitChar (n / 0x100 % 16), Nat.digitChar (n / 16 % 16),
      Nat.digitChar (n % 16)] := by
  have hdigits : ∀ m, Nat.toDigits 16 m =
      if m < 16 then [m.digitChar] else Nat.toDigits 16 (m / 16) ++ [Nat.digitChar (m % 16)] :=
    fun m => Nat.toDigits_eq_if (by decide)
  have hzero : Nat.digitChar 0 = '0' := rfl
  unfold Text.Quoted.hex
  dsimp only
  rw [hdigits n]
  by_cases h₁ : n < 0x10
  · have : n / 0x1000 = 0 ∧ n / 0x100 = 0 ∧ n / 16 = 0 ∧ n % 16 = n := by omega
    simp [h₁, this, List.replicate]
  rw [if_neg h₁, hdigits (n / 16)]
  by_cases h₂ : n < 0x100
  · have : n / 0x1000 = 0 ∧ n / 0x100 = 0 ∧ n / 16 < 16 ∧ n / 16 % 16 = n / 16 := by omega
    simp [this, List.replicate]
  have h₂' : ¬ n / 16 < 16 := by omega
  have hdiv : n / 16 / 16 = n / 0x100 := by omega
  rw [if_neg h₂', hdiv, hdigits (n / 0x100)]
  by_cases h₃ : n < 0x1000
  · have : n / 0x1000 = 0 ∧ n / 0x100 < 16 ∧ n / 0x100 % 16 = n / 0x100 := by omega
    simp [this]
  have h₃' : ¬ n / 0x100 < 16 := by omega
  have hdiv' : n / 0x100 / 16 = n / 0x1000 := by omega
  have hlast : n / 0x1000 < 16 := by omega
  rw [if_neg h₃', hdiv', hdigits (n / 0x1000), if_pos hlast]
  simp

theorem quotedUnits_escapeUnit {n : Nat} (h : n < 0x10000) (cs : List Char) :
    quotedUnits (escapeUnit n ++ cs) =
      (quotedUnits cs).map fun (ns, rest) => (n :: ns, rest) := by
  have hunit : unit? (Nat.digitChar (n / 0x1000)) (Nat.digitChar (n / 0x100 % 16))
      (Nat.digitChar (n / 16 % 16)) (Nat.digitChar (n % 16)) = some n := by
    have hsum : ((n / 0x1000 * 16 + n / 0x100 % 16) * 16 + n / 16 % 16) * 16 + n % 16 = n := by
      omega
    have hlt : n / 0x1000 < 16 := by omega
    simp [unit?, hexValue?_digitChar, Nat.mod_lt, hlt, hsum]
  rw [escapeUnit, hex_four h]
  simp only [List.cons_append, List.nil_append, quotedUnits, hunit]
  cases quotedUnits cs <;> rfl

/-- The range of code points leaves out the surrogates. -/
theorem toNat_valid (c : Char) : c.toNat < 0xd800 ∨ 0xdfff < c.toNat ∧ c.toNat < 0x110000 :=
  c.valid

theorem quotedUnits_letter {l c : Char} (hl : unescape? l = some c) (cs : List Char) :
    quotedUnits ('\\' :: l :: cs) =
      (quotedUnits cs).map fun (ns, rest) => (c.toNat :: ns, rest) := by
  have hu : l ≠ 'u' := by
    rintro rfl
    cases hl
  rw [quotedUnits]
  · rw [hl]
    cases quotedUnits cs <;> rfl
  · rintro a b c d cs rfl
    exact absurd rfl hu

theorem quotedUnits_plain {c : Char} (hquote : c ≠ '"') (hslash : c ≠ '\\') (h : ' ' ≤ c)
    (cs : List Char) :
    quotedUnits (c :: cs) = (quotedUnits cs).map fun (ns, rest) => (c.toNat :: ns, rest) := by
  have hlow : ¬ c.toNat < 0x20 := Nat.not_lt.mpr h
  rw [quotedUnits, if_neg hlow]
  · cases quotedUnits cs <;> rfl
  · exact hquote
  · rintro _ _ _ _ _ rfl
    exact absurd rfl hslash
  · rintro _ _ rfl
    exact absurd rfl hslash

theorem quotedUnits_escape (c : Char) (cs : List Char) :
    quotedUnits (escape c ++ cs) =
      (quotedUnits cs).map fun (ns, rest) => (unitsOf c ++ ns, rest) := by
  have hvalid := toNat_valid c
  by_cases hbig : 0x10000 ≤ c.toNat
  · have hne : ∀ d : Char, d.toNat < 0x10000 → c ≠ d := by
      rintro d hd rfl
      omega
    have hlast : ¬ (' ' ≤ c ∧ c ≤ '~') := by
      rintro ⟨-, hle⟩
      have hle : c.toNat ≤ 0x7e := hle
      omega
    have hescape : escape c = (unitsOf c).flatMap escapeUnit := by
      simp [escape, hne, hlast]
    have hunits : unitsOf c = _ := if_neg (by omega)
    rw [hescape, hunits]
    simp only [List.flatMap_cons, List.flatMap_nil, List.append_nil, List.append_assoc]
    rw [quotedUnits_escapeUnit (by omega), quotedUnits_escapeUnit (by omega), Option.map_map]
    rfl
  have hunits : unitsOf c = [c.toNat] := if_pos (by omega)
  rw [hunits]
  unfold escape
  split_ifs with h₁ h₂ h₃ h₄ h₅ h₆ h₇ h₈
  · subst h₁
    exact quotedUnits_letter rfl cs
  · subst h₂
    exact quotedUnits_letter rfl cs
  · subst h₃
    exact quotedUnits_letter rfl cs
  · subst h₄
    exact quotedUnits_letter rfl cs
  · subst h₅
    exact quotedUnits_letter rfl cs
  · subst h₆
    exact quotedUnits_letter rfl cs
  · subst h₇
    exact quotedUnits_letter rfl cs
  · exact quotedUnits_plain h₁ h₂ h₈.1 cs
  · rw [hunits, List.flatMap_singleton]
    exact quotedUnits_escapeUnit (by omega) cs

theorem ofUnits_cons_cons (m n : Nat) (ns : List Nat) : ofUnits (m :: n :: ns) =
    if 0xd800 ≤ m ∧ m < 0xdc00 ∧ 0xdc00 ≤ n ∧ n < 0xe000 then
      Char.ofNat (0x10000 + (m - 0xd800) * 0x400 + (n - 0xdc00)) :: ofUnits ns
    else (if h : m.isValidChar then Char.ofNatAux m h else '\ufffd') :: ofUnits (n :: ns) :=
  rfl

theorem ofUnits_unitsOf (c : Char) (ns : List Nat) :
    ofUnits (unitsOf c ++ ns) = c :: ofUnits ns := by
  have hvalid := toNat_valid c
  have hback := Char.ofNat_toNat c
  unfold unitsOf
  split_ifs with hsmall
  · -- one unit, and no surrogate
    have hchar : (if h : c.toNat.isValidChar then Char.ofNatAux c.toNat h else '\ufffd') = c := by
      have hc : c.toNat.isValidChar := c.valid
      rw [Char.ofNat, dif_pos hc] at hback
      rw [dif_pos hc, hback]
    cases ns with
    | nil => exact congrArg (fun d => [d]) hchar
    | cons n ns =>
      have hpair : ¬ (0xd800 ≤ c.toNat ∧ c.toNat < 0xdc00 ∧ 0xdc00 ≤ n ∧ n < 0xe000) := by omega
      rw [List.singleton_append, ofUnits_cons_cons, if_neg hpair, hchar]
  · -- a pair of surrogates
    obtain ⟨k, hk⟩ : ∃ k, c.toNat = 0x10000 + k := ⟨c.toNat - 0x10000, by omega⟩
    have hpair : 0xd800 ≤ 0xd800 + k / 0x400 ∧ 0xd800 + k / 0x400 < 0xdc00 ∧
        0xdc00 ≤ 0xdc00 + k % 0x400 ∧ 0xdc00 + k % 0x400 < 0xe000 := by omega
    have hsum : 0x10000 + (0xd800 + k / 0x400 - 0xd800) * 0x400 + (0xdc00 + k % 0x400 - 0xdc00) =
        c.toNat := by omega
    have hsub : c.toNat - 0x10000 = k := by omega
    rw [hsub, List.cons_append, List.singleton_append, ofUnits_cons_cons, if_pos hpair, hsum, hback]

theorem quotedUnits_flatMap (cs rest : List Char) :
    quotedUnits (cs.flatMap escape ++ '"' :: rest) = some (cs.flatMap unitsOf, rest) := by
  induction cs with
  | nil => rfl
  | cons c cs ih =>
    rw [List.flatMap_cons, List.append_assoc, quotedUnits_escape, ih]
    rfl

theorem ofUnits_flatMap (cs : List Char) : ofUnits (cs.flatMap unitsOf) = cs := by
  induction cs with
  | nil => rfl
  | cons c cs ih => rw [List.flatMap_cons, ofUnits_unitsOf, ih]

/-- What is written between quotes is read as one token. -/
theorem token?_encodeText (s : String) (rest : List Char) :
    token? (encodeText s ++ rest) = some (.atom (.text s), rest) := by
  have h : encodeText s ++ rest = '"' :: (s.toList.flatMap escape ++ '"' :: rest) := by
    simp [encodeText]
  rw [h, token?, quotedUnits_flatMap, Option.map_some]
  dsimp only
  rw [ofUnits_flatMap, String.ofList_toList]

end FieldRules.Json
