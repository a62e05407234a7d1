import FieldRules.Proofs.Json.RoundTrip
import FieldRules.Proofs.Text.Split
import FieldRules.Range.Check

/-! Values and the texts that show them lie in the same ranges: a text is taken for the integer, the
truth value or the list that it shows. -/
namespace FieldRules

namespace Text

theorem isBlank_of_isDigit {c : Char} (h : Json.isDigit c = true) : isBlank c = false := by
  simp only [Json.isDigit, Bool.and_eq_true, decide_eq_true_eq, Char.le_def,
    UInt32.le_iff_toNat_le] at h
  have hlow : 48 ≤ c.toNat := h.1
  have hhigh : c.toNat ≤ 57 := h.2
  simp [isBlank, blankRanges, CodeRanges.holds]
  omega

theorem trimmed_of_forall {s : String} (h : ∀ c ∈ s.toList, isBlank c = false) : Trimmed s := by
  simp only [Trimmed, Option.all_eq_true, Bool.not_eq_true']
  exact ⟨fun c hc => h c (List.mem_of_head? hc), fun c hc => h c (List.mem_of_getLast? hc)⟩

end Text

namespace Numeral

theorem trimmed_chars (i : ℤ) : Text.Trimmed (String.ofList (chars i)) := by
  have hdigits : ∀ c ∈ Nat.toDigits 10 i.natAbs, Text.isBlank c = false :=
    fun c hc => Text.isBlank_of_isDigit (isDigit_of_mem_toDigits hc)
  apply Text.trimmed_of_forall
  rw [String.toList_ofList]
  unfold chars
  split_ifs
  · exact List.forall_mem_cons.mpr ⟨by decide, hdigits⟩
  · exact hdigits

end Numeral

theorem unsignedInteger?_toDigits (negative : Bool) {n : ℕ}
    (h : n < Nat.pow 10 Numeral.maxDigits) : unsignedInteger? negative (Nat.toDigits 10 n) =
      .ok (some (if negative then -(n : ℤ) else n)) := by
  have hdigits : areDigits (Nat.toDigits 10 n) = true := by
    simp only [areDigits, Bool.and_eq_true, Bool.not_eq_true', List.isEmpty_eq_false_iff,
      List.all_eq_true]
    exact ⟨Nat.toDigits_ne_nil, fun c => Numeral.isDigit_of_mem_toDigits⟩
  rw [unsignedInteger?, if_pos hdigits, Numeral.readNat_toDigits h]
  rfl

theorem unsignedInteger?_bracket (negative : Bool) (cs : List Char) :
    unsignedInteger? negative ('[' :: cs) = .ok none := by
  have hdigits : areDigits ('[' :: cs) = false := rfl
  have hdecimal : decimal? negative ('[' :: cs) = none := rfl
  simp [unsignedInteger?, hdigits, hdecimal]

namespace Value

variable {v : Value} {s : String}

/-- A text, a truth value, an integer that is not too long, or a list that is read as it was
written. -/
def Plain : Value → Prop
  | .text _ => True
  | .bool _ => True
  | .int i => i.natAbs < Nat.pow 10 Numeral.maxDigits
  | .list xs => ∀ x ∈ xs, Json.Durable x
  | _ => False

theorem Plain.writable (h : v.Plain) : v.Writable := by
  cases v with
  | list xs => exact writable_list.mpr fun x hx => (h x hx).writable
  | int i => exact h
  | text s => exact writable_text s
  | bool b => simp [Writable]
  | _ => exact h.elim

theorem Plain.items?_eq (h : v.Plain) (hs : v.display = .ok s) : (text s).items? = v.items? := by
  cases v with
  | text t =>
    cases hs
    rfl
  | bool b => cases b <;> cases hs <;> rfl
  | int i =>
    have hread := Json.decode_of_encode (v := .int i) h hs
    simp only [items?, Json.decodeList, hread]
  | list xs =>
    have hread := Json.decode_of_encode (Json.durable_list.mpr h) hs
    simp only [items?, Json.decodeList, hread]
  | _ => exact h.elim

theorem integer?_int_text {i : ℤ} (h : i.natAbs < Nat.pow 10 Numeral.maxDigits) :
    (text (String.ofList (Numeral.chars i))).integer? = .ok (some i) := by
  have htrim : Text.trimChars (String.ofList (Numeral.chars i)).toList = Numeral.chars i := by
    rw [← Text.toList_trim, (Numeral.trimmed_chars i).trim_eq, String.toList_ofList]
  have hread := fun negative => unsignedInteger?_toDigits negative h
  simp only [integer?, htrim]
  unfold Numeral.chars
  split_ifs with hneg
  · have hi : -(i.natAbs : ℤ) = i := by omega
    have htrue := hread true
    rwa [if_pos rfl, hi] at htrue
  · have hi : (i.natAbs : ℤ) = i := by omega
    have hsign : ∀ c cs, Json.isDigit c = false → Nat.toDigits 10 i.natAbs ≠ c :: cs := by
      intro c cs hc hcs
      have hdigit := Numeral.isDigit_of_mem_toDigits (hcs ▸ List.mem_cons_self)
      rw [hc] at hdigit
      cases hdigit
    split
    · rename_i cs heq
      exact absurd heq (hsign '+' cs rfl)
    · rename_i cs heq
      exact absurd heq (hsign '-' cs rfl)
    · have hfalse := hread false
      rwa [if_neg Bool.false_ne_true, hi] at hfalse

theorem integer?_list_text {xs : List Value} (hs : Json.encode (.list xs) = .ok s) :
    (text s).integer? = .ok none := by
  unfold Json.encode Json.encodeChars at hs
  cases hbody : Json.encodeItems xs with
  | error fault =>
    rw [hbody] at hs
    cases hs
  | ok body =>
    rw [hbody] at hs
    cases hs
    have htrimmed : Text.Trimmed (String.ofList ('[' :: body ++ [']'])) := by
      unfold Text.Trimmed
      rw [String.toList_ofList, List.getLast?_concat]
      exact ⟨rfl, by decide⟩
    have htrim : Text.trimChars (String.ofList ('[' :: body ++ [']'])).toList =
        '[' :: (body ++ [']']) := by
      rw [← Text.toList_trim, htrimmed.trim_eq, String.toList_ofList]
      rfl
    simp only [integer?]
    rw [htrim]
    exact unsignedInteger?_bracket false _

theorem Plain.integer?_eq (h : v.Plain) (hs : v.display = .ok s) :
    (text s).integer? = v.integer? := by
  cases v with
  | text t =>
    cases hs
    rfl
  | bool b => cases b <;> cases hs <;> rfl
  | int i =>
    have hchars : s = String.ofList (Numeral.chars i) := by
      simp only [display, inspect, inspectChars, Numeral.write_eq_ok h] at hs
      cases hs
      rfl
    rw [hchars, integer?_int_text h]
    rfl
  | list xs => exact integer?_list_text hs
  | _ => exact h.elim

end Value

namespace Range

variable {v : Value} {s : String}

theorem scalarHolds_text (type : ScalarType) (bounds : Bounds) (h : v.Plain)
    (hs : v.display = .ok s) : scalarHolds type bounds (.text s) s = scalarHolds type bounds v s := by
  cases type with
  | string => rfl
  | url => rfl
  | integer => simp only [scalarHolds, h.integer?_eq hs]
  | boolean =>
    cases v with
    | bool b => cases b <;> cases hs <;> rfl
    | _ => rfl

theorem holds_text (range : Range) (h : v.Plain) (hs : v.display = .ok s) :
    range.holds (.text s) = range.holds v := by
  have hshown : (Value.text s).display = v.display := hs.symm
  have hitems := h.items?_eq hs
  unfold holds
  rw [hshown, hs]
  cases range with
  | scalar type bounds => exact scalarHolds_text type bounds h hs
  | array type size =>
    simp only [hitems]
    rfl
  | choices options size =>
    simp only [hitems]
    rfl
  | choice options => rfl
  | pattern regex => rfl

/-- A value and the text that shows it are accepted alike. -/
theorem accepts_shown {v : Value} (h : v.Plain) :
    ∃ s, v.display = .ok s ∧ ∀ range, accepts range (.text s) = accepts range v := by
  obtain ⟨s, hs⟩ := Value.exists_display h.writable
  refine ⟨s, hs, fun range => ?_⟩
  unfold accepts
  cases parse range with
  | error fault => rfl
  | ok r => exact holds_text r h hs

theorem accepts_shown_numbered : ∃ s, (Value.list [.int 7, .text "7\t[\u2028"]).display = .ok s ∧
    ∀ range, accepts range (.text s) = accepts range (.list [.int 7, .text "7\t[\u2028"]) := by
  have hplain : (Value.list [.int 7, .text "7\t[\u2028"]).Plain := by
    simp only [Value.Plain, List.forall_mem_cons]
    exact ⟨Json.durable_int (k := 1) (by decide) (by decide), Json.durable_text _, by simp⟩
  exact accepts_shown hplain

end Range

end FieldRules
