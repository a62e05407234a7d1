import FieldRules.Proofs.Json.RoundTrip
import FieldRules.Proofs.Range.Words
import FieldRules.Proofs.Regex.Faults
import FieldRules.Proofs.Value.Items
import FieldRules.Range.Check

/-! Which questions about ranges are answered. A numeral can be too long to be read or written, in
the text of a range, in a value or in a text that shows one, and a regular expression can ask for
more repetitions than can be counted. Every other question has an answer. -/
namespace FieldRules

theorem exists_unsignedInteger? {negative : Bool} {cs : List Char} :
    (∃ n, unsignedInteger? negative cs = .ok n) ↔
      ¬ ((∀ c ∈ cs, Json.isDigit c) ∧ Numeral.maxDigits < cs.length) := by
  unfold unsignedInteger?
  by_cases hdigits : areDigits cs
  · have hall : ∀ c ∈ cs, Json.isDigit c := by
      simp only [areDigits, Bool.and_eq_true, List.all_eq_true] at hdigits
      exact hdigits.2
    rw [if_pos hdigits]
    cases hread : Numeral.readNat cs with
    | error f =>
      have hlong := (Numeral.readNat_eq_error.mp hread).2
      refine ⟨?_, fun h => absurd ⟨hall, hlong⟩ h⟩
      rintro ⟨n, hn⟩
      cases hn
    | ok n =>
      have hshort : ¬ Numeral.maxDigits < cs.length := by
        intro hlong
        rw [Numeral.readNat_eq_error.mpr ⟨rfl, hlong⟩] at hread
        cases hread
      exact ⟨fun _ h => hshort h.2, fun _ => ⟨_, rfl⟩⟩
  · rw [if_neg hdigits]
    simp only [Except.ok.injEq, exists_eq', true_iff]
    rintro ⟨hall, hlen⟩
    apply hdigits
    simp only [areDigits, Bool.and_eq_true, List.all_eq_true, Bool.not_eq_true',
      List.isEmpty_eq_false_iff]
    exact ⟨List.ne_nil_of_length_pos (by omega), hall⟩

namespace Value

/-- What follows a sign. -/
def unsigned : List Char → List Char
  | '+' :: cs => cs
  | '-' :: cs => cs
  | cs => cs

/-- A text that shows an integer of more digits than can be read. -/
def LongNumeral : Value → Prop
  | .text s => (∀ c ∈ unsigned (Text.trimChars s.toList), Json.isDigit c) ∧
      Numeral.maxDigits < (unsigned (Text.trimChars s.toList)).length
  | _ => False

theorem exists_integer? {v : Value} : (∃ n, v.integer? = .ok n) ↔ ¬ v.LongNumeral := by
  cases v with
  | text s =>
    simp only [integer?, LongNumeral]
    generalize Text.trimChars s.toList = cs
    split
    · exact exists_unsignedInteger?
    · exact exists_unsignedInteger?
    · have hsame : unsigned cs = cs := by
        unfold unsigned
        split <;> simp_all
      rw [hsame]
      exact exists_unsignedInteger?
  | _ => simp [integer?, LongNumeral]

theorem writable_items? {v : Value} {xs : List Value} (hv : v.Writable) (h : v.items? = some xs) :
    ∀ x ∈ xs, x.Writable := by
  cases v with
  | list ys =>
    cases h
    exact writable_list.mp hv
  | text s => exact Json.writable_decodeList h
  | _ => cases h

end Value

namespace Range

variable {rt : Runtime}

/-- A regular expression that can be read, or is malformed, as deeply as its groups are nested. -/
def Readable (rt : Runtime) (regex : String) : Prop :=
  ∀ f, Regex.parse {} regex rt.codeOfName? ≠ .error (.fault f)

/-- A regular expression without ten digits in a row, and without the characters of flags for two
repertoires of letters. -/
def Tame (regex : String) : Prop :=
  (∀ ds, ds <:+: regex.toList → (∀ d ∈ ds, Json.isDigit d) → ds.length < 10) ∧
    ¬ ('?' ∈ regex.toList ∧ 'a' ∈ regex.toList ∧ 'u' ∈ regex.toList)

theorem Tame.readable {regex : String} (h : Tame regex) (rt : Runtime) : Readable rt regex :=
  fun _ => Regex.parse_ne_fault h.1 h.2

theorem exists_matchesRegex {regex text : String} :
    (∃ b, matchesRegex rt regex text = .ok b) ↔ Readable rt regex := by
  unfold matchesRegex Readable
  cases Regex.parse {} regex rt.codeOfName? with
  | ok p => simp
  | error refusal => cases refusal <;> simp

theorem exists_scalarHolds {type : ScalarType} {bounds : Bounds} {v : Value} {text : String} :
    (∃ b, scalarHolds type bounds v text = .ok b) ↔ (type = .integer → ¬ v.LongNumeral) := by
  cases type with
  | integer =>
    rw [imp_iff_right rfl, ← Value.exists_integer?]
    unfold scalarHolds
    cases v.integer? with
    | error f => simp [bind, Except.bind]
    | ok n => cases n <;> simp [bind, Except.bind, pure, Except.pure]
  | _ => simp [scalarHolds]

/-- Options are compared with the items of any list that can be shown. -/
theorem exists_allM_contains (options : List String) {xs : List Value}
    (h : ∀ x ∈ xs, x.Writable) :
    ∃ b, (xs.allM fun x => do return options.contains (← x.display)) = .ok b :=
  ⟨_, Fault.allM_eq_ok fun x hx => by rw [Value.display_eq_ok (h x hx).showable]; rfl⟩

/-- Whether a value lies in a range is decided for all values that can be shown, but for what is
nested too deeply, numerals that cannot be read and regular expressions that cannot be run. -/
theorem exists_holds {range : Range} {v : Value} (hv : v.Simple) :
    (∃ b, range.holds v rt = .ok b) ↔ rt.overflows range v = false ∧ v.Writable ∧
      (∀ bounds, range = .scalar .integer bounds → ¬ v.LongNumeral) ∧
      ∀ regex, range = .pattern regex → Readable rt regex := by
  cases hroom : rt.overflows range v with
  | true => simp [holds, hroom, bind, Except.bind, throw, throwThe, MonadExceptOf.throw]
  | false =>
    rw [and_iff_right rfl]
    by_cases hw : v.Writable
    · obtain ⟨text, htext⟩ := Value.exists_display hw
      rw [and_iff_right hw]
      unfold holds
      rw [htext, hroom]
      cases range with
      | scalar type bounds => simpa [bind, Except.bind] using exists_scalarHolds
      | array type size =>
        cases v.items? <;> simp [bind, Except.bind, pure, Except.pure]
      | choice options => simp [bind, Except.bind, pure, Except.pure]
      | choices options size =>
        cases hitems : v.items? with
        | none => simp [bind, Except.bind, pure, Except.pure]
        | some xs =>
          obtain ⟨b, hb⟩ := exists_allM_contains options (Value.writable_items? hw hitems)
          simp only [reduceCtorEq, false_implies, implies_true, and_self, iff_true]
          cases hsize : size.hold xs.length with
          | true => exact ⟨b, by simpa [bind, Except.bind, hsize] using hb⟩
          | false => exact ⟨false, by simp [bind, Except.bind, pure, Except.pure]⟩
      | pattern regex => simpa [bind, Except.bind] using exists_matchesRegex
    · have hshown : ¬ ∃ b, range.holds v rt = .ok b := by
        rintro ⟨b, hb⟩
        rw [holds, hroom] at hb
        obtain ⟨text, htext, -⟩ := Fault.bind_eq_ok.mp hb
        exact hw ((Value.exists_display_iff hv).mp ⟨text, htext⟩)
      tauto

theorem exists_parse {s : String} :
    (∃ range, parse s = .ok range) ↔ ¬ Oversized (Text.trimChars s.toList) := by
  cases hparse : parse s with
  | error f => simpa using (parse_eq_error.mp hparse).2
  | ok range =>
    have hread : ¬ Oversized (Text.trimChars s.toList) := by
      intro h
      rw [parse_eq_error.mpr ⟨rfl, h⟩] at hparse
      cases hparse
    simpa using hread

theorem exists_accepts {s : String} {v : Value} (hv : v.Simple) :
    (∃ b, accepts s v rt = .ok b) ↔ ∃ range, parse s = .ok range ∧ rt.overflows range v = false ∧
      v.Writable ∧ (∀ bounds, range = .scalar .integer bounds → ¬ v.LongNumeral) ∧
      ∀ regex, range = .pattern regex → Readable rt regex := by
  cases hparse : parse s with
  | error f => simp [accepts, hparse, bind, Except.bind]
  | ok range => simpa [accepts, hparse, bind, Except.bind] using exists_holds hv

-- One repetition more than can be counted, in an expression that is well formed otherwise.
example : accepts "^a\x7b4294967295\x7d$" (.text "a") = .error .repetitionTooLarge := rfl

end Range

end FieldRules
