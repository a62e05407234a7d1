import FieldRules.Proofs.Range.Size
import FieldRules.Proofs.Value.Decoded
import FieldRules.Range.Describe

/-! Words for ranges. Bounds that were read can be written, so a range that is read has words. -/
namespace FieldRules

/-- Bounds that have few enough digits to be written. -/
def Bounds.Writable (b : Bounds) : Prop :=
  ∀ n, b.min = some n ∨ b.max = some n → n.natAbs < Nat.pow 10 Numeral.maxDigits

theorem Numeral.lt_of_readInt {cs : List Char} {i : ℤ} (h : readInt cs = .ok i) :
    i.natAbs < Nat.pow 10 maxDigits := by
  unfold readInt at h
  split at h
  · obtain ⟨j, hj, rfl⟩ := Fault.map_eq_ok.mp h
    obtain ⟨n, hn, hj⟩ := Fault.bind_eq_ok.mp hj
    cases hj
    simpa using lt_of_readNat hn
  · obtain ⟨j, hj, rfl⟩ := Fault.map_eq_ok.mp h
    obtain ⟨n, hn, hj⟩ := Fault.bind_eq_ok.mp hj
    cases hj
    simpa using lt_of_readNat hn

namespace Range

/-- The bounds of a range, on whatever they are. -/
def bounds : Range → Bounds
  | .scalar _ bounds => bounds
  | .array _ size => size
  | .choices _ size => size
  | _ => {}

theorem writable_bound {cs : List Char} {n : ℤ} (h : bound cs = .ok (some n)) :
    n.natAbs < Nat.pow 10 Numeral.maxDigits := by
  unfold bound at h
  split_ifs at h
  · cases h
  · obtain ⟨i, hi, hn⟩ := Fault.map_eq_ok.mp h
    cases hn
    exact Numeral.lt_of_readInt hi

theorem writable_boundsOf {lo hi : List Char} {b : Bounds} (h : boundsOf lo hi = .ok b) :
    b.Writable := by
  obtain ⟨min, hmin, h⟩ := Fault.bind_eq_ok.mp h
  obtain ⟨max, hmax, h⟩ := Fault.bind_eq_ok.mp h
  cases h
  rintro n (rfl | rfl)
  · exact writable_bound hmin
  · exact writable_bound hmax

theorem writable_boundedScalar? {cs : List Char} {range : Range}
    (h : boundedScalar? cs = some range) : range.bounds.Writable := by
  obtain ⟨⟨type, lo, hi⟩, -, h⟩ := Option.bind_eq_some_iff.mp h
  dsimp only at h
  split_ifs at h
  split at h
  · rename_i b hb
    cases h
    exact writable_boundsOf hb
  · cases h

/-- The bounds in a text that is read can be written. -/
theorem writable_parse {s : String} {range : Range} (h : parse s = .ok range) :
    range.bounds.Writable := by
  have hfree : Bounds.Writable {} := by simp [Bounds.Writable]
  unfold parse at h
  split at h
  · cases h
    exact hfree
  · unfold parseTrimmed at h
    split at h
    · cases h
      exact hfree
    · split at h
      · rename_i hscalar
        cases h
        exact writable_boundedScalar? hscalar
      · split at h
        · obtain ⟨b, hb, rfl⟩ := Fault.map_eq_ok.mp h
          exact writable_boundsOf hb
        · split at h
          · obtain ⟨b, hb, rfl⟩ := Fault.map_eq_ok.mp h
            exact writable_boundsOf hb
          · split_ifs at h <;> cases h <;> exact hfree

theorem digits_eq_ok {n : ℤ} (h : n.natAbs < Nat.pow 10 Numeral.maxDigits) :
    digits n = .ok (String.ofList (Numeral.chars n)) := by
  rw [digits, Numeral.write_eq_ok h]
  rfl

variable {b : Bounds}

theorem exists_describeText (h : b.Writable) : ∃ words, describeText b = .ok words := by
  have hdigits := fun n hn => digits_eq_ok (h n hn)
  rcases b with ⟨_ | lo, _ | hi⟩
  · exact ⟨_, rfl⟩
  · simp [describeText, characters, hdigits hi (.inr rfl)]
  · simp [describeText, characters, hdigits lo (.inl rfl)]
  · simp only [describeText, characters, hdigits lo (.inl rfl), hdigits hi (.inr rfl)]
    split_ifs <;> exact ⟨_, rfl⟩

theorem exists_describeNumber (h : b.Writable) : ∃ words, describeNumber b = .ok words := by
  have hdigits := fun n hn => digits_eq_ok (h n hn)
  rcases b with ⟨_ | lo, _ | hi⟩
  · exact ⟨_, rfl⟩
  · simp [describeNumber, hdigits hi (.inr rfl)]
  · simp [describeNumber, hdigits lo (.inl rfl)]
  · simp only [describeNumber, hdigits lo (.inl rfl), hdigits hi (.inr rfl)]
    exact ⟨_, rfl⟩

theorem exists_describeArray (h : b.Writable) (type : ItemType) :
    ∃ words, describeArray type b = .ok words := by
  have hdigits := fun n hn => digits_eq_ok (h n hn)
  rcases b with ⟨_ | lo, _ | hi⟩
  · exact ⟨_, rfl⟩
  · simp [describeArray, hdigits hi (.inr rfl)]
  · simp [describeArray, hdigits lo (.inl rfl)]
  · simp only [describeArray, hdigits lo (.inl rfl), hdigits hi (.inr rfl)]
    split_ifs <;> exact ⟨_, rfl⟩

theorem exists_describeChoices (h : b.Writable) (options : List String) :
    ∃ words, describeChoices options b = .ok words := by
  have hdigits := fun n hn => digits_eq_ok (h n hn)
  rcases b with ⟨_ | lo, _ | hi⟩
  · exact ⟨_, rfl⟩
  · simp [describeChoices, hdigits hi (.inr rfl)]
  · simp [describeChoices, hdigits lo (.inl rfl)]
  · simp only [describeChoices, hdigits lo (.inl rfl), hdigits hi (.inr rfl)]
    split_ifs <;> exact ⟨_, rfl⟩

theorem exists_describe {range : Range} (h : range.bounds.Writable) :
    ∃ words, range.describe = .ok words := by
  cases range with
  | scalar type bounds =>
    cases type with
    | string => exact exists_describeText h
    | integer => exact exists_describeNumber h
    | boolean => exact ⟨_, rfl⟩
    | url => exact ⟨_, rfl⟩
  | array type size => exact exists_describeArray h type
  | choice options => exact ⟨_, rfl⟩
  | choices options size => exact exists_describeChoices h options
  | pattern regex => exact ⟨_, rfl⟩

/-- A text of a range has words exactly when the range is read. -/
theorem exists_describeText? {s : String} :
    (∃ words, describeText? s = .ok words) ↔ ∃ range, parse s = .ok range := by
  unfold describeText?
  split_ifs with hblank
  · exact ⟨fun _ => ⟨anyText, by rw [parse, if_pos hblank]⟩, fun _ => ⟨_, rfl⟩⟩
  · constructor
    · rintro ⟨words, h⟩
      obtain ⟨range, hrange, -⟩ := Fault.bind_eq_ok.mp h
      exact ⟨range, hrange⟩
    · rintro ⟨range, hrange⟩
      obtain ⟨words, hwords⟩ := exists_describe (writable_parse hrange)
      exact ⟨words, Fault.bind_eq_ok.mpr ⟨range, hrange, hwords⟩⟩

end Range

end FieldRules
