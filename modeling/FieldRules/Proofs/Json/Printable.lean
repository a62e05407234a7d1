import FieldRules.Proofs.Json.RoundTrip
import FieldRules.Value.Display

/-! Lists of texts and integers as they are shown. Whatever characters the texts have, the list is
shown in printable ASCII, and it is read again from what is shown. -/
namespace FieldRules.Json

/-- A printable character of ASCII. -/
def Printable (c : Char) : Prop := ' ' ≤ c ∧ c ≤ '~'

instance (c : Char) : Decidable (Printable c) :=
  inferInstanceAs (Decidable (_ ∧ _))

theorem printable_digitChar {d : ℕ} (h : d < 16) : Printable d.digitChar := by
  have hall : ∀ d < 16, Printable (Nat.digitChar d) := by decide
  exact hall d h

theorem printable_of_isDigit {c : Char} (h : isDigit c = true) : Printable c := by
  have hdigit : '0' ≤ c ∧ c ≤ '9' := by simpa [isDigit] using h
  have hlow : ' ' ≤ '0' := by decide
  have hhigh : '9' ≤ '~' := by decide
  exact ⟨Char.le_trans hlow hdigit.1, Char.le_trans hdigit.2 hhigh⟩

theorem unitsOf_lt (c : Char) : ∀ n ∈ unitsOf c, n < 0x10000 := by
  have hvalid := toNat_valid c
  unfold unitsOf
  split_ifs with hsmall
  · simpa using hsmall
  · simp only [List.forall_mem_cons, List.not_mem_nil, false_imp_iff, implies_true, and_true]
    omega

theorem printable_escapeUnit {n : ℕ} (h : n < 0x10000) : ∀ c ∈ escapeUnit n, Printable c := by
  have hslash : Printable '\\' := by decide
  have hletter : Printable 'u' := by decide
  rw [escapeUnit, hex_four h]
  simp only [List.forall_mem_cons, List.not_mem_nil, false_imp_iff, implies_true, and_true]
  exact ⟨hslash, hletter, printable_digitChar (by omega), printable_digitChar (by omega),
    printable_digitChar (by omega), printable_digitChar (by omega)⟩

theorem printable_pair {c d : Char} (hc : Printable c) (hd : Printable d) :
    ∀ e ∈ [c, d], Printable e := by
  simp [hc, hd]

theorem printable_escape (c : Char) : ∀ d ∈ escape c, Printable d := by
  unfold escape
  split_ifs with h₁ h₂ h₃ h₄ h₅ h₆ h₇ h₈
  · exact printable_pair (by decide) (by decide)
  · exact printable_pair (by decide) (by decide)
  · exact printable_pair (by decide) (by decide)
  · exact printable_pair (by decide) (by decide)
  · exact printable_pair (by decide) (by decide)
  · exact printable_pair (by decide) (by decide)
  · exact printable_pair (by decide) (by decide)
  · simpa [Printable] using h₈
  · intro d hd
    obtain ⟨n, hn, hd⟩ := List.mem_flatMap.mp hd
    exact printable_escapeUnit (unitsOf_lt c n hn) d hd

theorem printable_encodeText (s : String) : ∀ c ∈ encodeText s, Printable c := by
  have hquote : Printable '"' := by decide
  intro c hc
  simp only [encodeText, List.cons_append, List.mem_cons, List.mem_append, List.not_mem_nil,
    or_false] at hc
  rcases hc with rfl | hc | rfl
  · exact hquote
  · obtain ⟨d, -, hc⟩ := List.mem_flatMap.mp hc
    exact printable_escape d c hc
  · exact hquote

theorem printable_numeral (i : ℤ) : ∀ c ∈ Numeral.chars i, Printable c := by
  have hdigits : ∀ c ∈ Nat.toDigits 10 i.natAbs, Printable c :=
    fun c hc => printable_of_isDigit (Numeral.isDigit_of_mem_toDigits hc)
  unfold Numeral.chars
  split_ifs
  · exact List.forall_mem_cons.mpr ⟨by decide, hdigits⟩
  · exact hdigits

/-- A text, or an integer that is not too long. -/
def Basic (x : Value) : Prop :=
  (∃ s, x = .text s) ∨ ∃ i : ℤ, x = .int i ∧ i.natAbs < Nat.pow 10 Numeral.maxDigits

theorem Basic.durable {x : Value} (h : Basic x) : Durable x := by
  rcases h with ⟨s, rfl⟩ | ⟨i, rfl, hi⟩
  · exact durable_text s
  · rwa [Durable]

theorem Basic.printable {x : Value} {cs : List Char} (h : Basic x) (hx : encodeChars x = .ok cs) :
    ∀ c ∈ cs, Printable c := by
  rcases h with ⟨s, rfl⟩ | ⟨i, rfl, hi⟩
  · cases hx
    exact printable_encodeText s
  · rw [encodeChars, Numeral.write_eq_ok hi] at hx
    cases hx
    exact printable_numeral i

theorem printable_encodeItems : ∀ {xs : List Value} {cs : List Char}, (∀ x ∈ xs, Basic x) →
    encodeItems xs = .ok cs → ∀ c ∈ cs, Printable c
  | [], cs, _, hxs => by
    cases hxs
    simp
  | [x], cs, h, hxs => (h x List.mem_cons_self).printable hxs
  | x :: y :: ys, cs, h, hxs => by
    obtain ⟨hx, hys⟩ := List.forall_mem_cons.mp h
    rw [encodeItems] at hxs
    · obtain ⟨front, hfront, hxs⟩ := Fault.bind_eq_ok.mp hxs
      obtain ⟨back, hback, hxs⟩ := Fault.bind_eq_ok.mp hxs
      cases hxs
      have hcomma : Printable ',' := by decide
      simp only [List.forall_mem_append, List.forall_mem_cons]
      exact ⟨hx.printable hfront, hcomma, printable_encodeItems hys hback⟩
    · simp

end FieldRules.Json

namespace FieldRules.Value

open Json

/-- A list of texts and integers that are not too long is shown in printable ASCII, whatever the
texts are, and it is read again from what is shown. -/
theorem decodeList_display {xs : List Value} (h : ∀ x ∈ xs, Basic x) :
    ∃ s, display (.list xs) = .ok s ∧ decodeList s = some xs ∧
      ∀ c ∈ s.toList, ' ' ≤ c ∧ c ≤ '~' := by
  obtain ⟨s, hencode, hdecode⟩ := exists_written fun x hx => (h x hx).durable
  refine ⟨s, hencode, hdecode, ?_⟩
  -- the text is the one between the brackets
  obtain ⟨cs, hcs, rfl⟩ := Fault.map_eq_ok.mp hencode
  rw [encodeChars] at hcs
  obtain ⟨body, hbody, hcs⟩ := Fault.bind_eq_ok.mp hcs
  cases hcs
  rw [String.toList_ofList]
  have hopen : Printable '[' := by decide
  have hclose : Printable ']' := by decide
  simp only [List.forall_mem_cons, List.cons_append, List.forall_mem_append]
  exact ⟨hopen, printable_encodeItems h hbody, hclose, by simp⟩

/-- Texts with a quote, backslashes, control characters and one beyond the basic plane, and a
number. -/
def inscriptions : List Value :=
  [.text "\\\"\n", .text "\\u0041\\", .text "\x01é😀", .int (-42), .text ""]

/-- The same as they are shown. -/
def inscribed : String :=
  "[\"\\\\\\\"\\n\",\"\\\\u0041\\\\\",\"\\u0001\\u00e9\\ud83d\\ude00\",-42,\"\"]"

theorem inscriptions_display :
    (∀ x ∈ inscriptions, Basic x) ∧ display (.list inscriptions) = .ok inscribed ∧
      decodeList inscribed = some inscriptions := by
  have hbasic : ∀ x ∈ inscriptions, Basic x := by
    have hshort : (-42 : ℤ).natAbs < Nat.pow 10 Numeral.maxDigits :=
      Numeral.lt_pow_maxDigits (by decide)
    simpa [inscriptions, Basic] using hshort
  have hshown : display (.list inscriptions) = .ok inscribed := by decide +kernel
  obtain ⟨s, hs, hread, -⟩ := decodeList_display hbasic
  rw [hshown] at hs
  cases hs
  exact ⟨hbasic, hshown, hread⟩

end FieldRules.Value
