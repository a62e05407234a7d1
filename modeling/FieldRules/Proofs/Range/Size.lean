import FieldRules.Proofs.Fault
import FieldRules.Range
import Mathlib.Algebra.Order.Ring.Nat
import Mathlib.Data.List.TakeWhile

/-! Sizes in the texts of ranges. A range is not read when it is a list and a bound of its size has
too many digits, and only then. -/
namespace FieldRules

namespace Numeral

theorem readNat_eq_error {cs : List Char} {f : Fault} :
    readNat cs = .error f ↔ f = .numeralTooLong ∧ maxDigits < cs.length := by
  unfold readNat
  split_ifs with h
  · simp [Nat.not_lt.mpr h]
  · simp [Nat.lt_of_not_le h, eq_comm]

theorem readInt_of_isDigit {cs : List Char} (h : ∀ c ∈ cs, Text.isDigit c) :
    readInt cs = (readNat cs).map fun n => (n : ℤ) := by
  unfold readInt
  split
  · exact absurd (h '-' List.mem_cons_self) (by decide)
  · rfl

end Numeral

/-- A run of characters of a kind ends before the first that is not of it. -/
theorem Text.run_append {p : Char → Bool} {run : List Char} {c : Char}
    (hrun : ∀ c ∈ run, p c) (hc : p c = false) (rest : List Char) :
    (run ++ c :: rest).takeWhile p = run ∧ (run ++ c :: rest).dropWhile p = c :: rest := by
  rw [List.takeWhile_append_of_pos hrun, List.dropWhile_append_of_pos hrun]
  simp [hc]

namespace Range

/-- Rows of digits with one point or two between them, in square brackets. -/
def IsSize (cs lo hi : List Char) : Prop :=
  ∃ points, (points = ['.'] ∨ points = ['.', '.']) ∧
    cs = '[' :: (lo ++ (points ++ (hi ++ [']']))) ∧
    (∀ c ∈ lo, Text.isDigit c) ∧ ∀ c ∈ hi, Text.isDigit c

theorem isDigit_point : Text.isDigit '.' = false := by decide

theorem isDigit_close : Text.isDigit ']' = false := by decide

theorem size?_of_isSize {cs lo hi : List Char} (h : IsSize cs lo hi) :
    size? cs = some (lo, hi) := by
  obtain ⟨points, hpoints, rfl, hlo, hhi⟩ := h
  obtain ⟨htake, hdrop⟩ := Text.run_append hhi isDigit_close []
  have hpoint : ∀ tail, ¬ hi ++ [']'] = '.' :: tail := by
    intro tail htail
    cases hi with
    | nil => cases htail
    | cons c hi =>
      cases htail
      exact absurd (hhi '.' List.mem_cons_self) (by decide)
  have hspan := Text.run_append hlo isDigit_point
  rcases hpoints with rfl | rfl
  · obtain ⟨htake', hdrop'⟩ := hspan (hi ++ [']'])
    cases lo <;> simp_all [size?]
  · obtain ⟨htake', hdrop'⟩ := hspan ('.' :: (hi ++ [']']))
    cases lo <;> simp_all [size?]

theorem isSize_of_size? {cs lo hi : List Char} (h : size? cs = some (lo, hi)) :
    (cs = ['[', ']'] ∧ lo = [] ∧ hi = []) ∨ IsSize cs lo hi := by
  unfold size? at h
  split at h
  · cases h
    exact .inl ⟨rfl, rfl, rfl⟩
  · rename_i cs _
    split at h
    · rename_i rest hdrop
      obtain ⟨past, points, hpoints, hrest, hsize⟩ : ∃ past points,
          (points = ['.'] ∨ points = ['.', '.']) ∧ '.' :: rest = points ++ past ∧
          (if past.dropWhile Text.isDigit = [']'] then
            some (cs.takeWhile Text.isDigit, past.takeWhile Text.isDigit) else none) =
              some (lo, hi) := by
        dsimp only at h
        split at h
        · exact ⟨_, _, .inr rfl, rfl, h⟩
        · exact ⟨rest, _, .inl rfl, rfl, h⟩
      split_ifs at hsize with hend
      cases hsize
      have hcs := List.takeWhile_append_dropWhile (p := Text.isDigit) (l := cs)
      have hpast := List.takeWhile_append_dropWhile (p := Text.isDigit) (l := past)
      rw [hdrop, hrest] at hcs
      rw [hend] at hpast
      refine .inr ⟨points, hpoints, ?_, fun c => List.mem_takeWhile_imp,
        fun c => List.mem_takeWhile_imp⟩
      rw [hpast, hcs]
    · cases h
  · cases h

/-- The bound of a row of digits is refused when the row is too long. -/
theorem bound_eq_error {cs : List Char} {f : Fault} (h : ∀ c ∈ cs, Text.isDigit c) :
    bound cs = .error f ↔ f = .numeralTooLong ∧ Numeral.maxDigits < cs.length := by
  cases cs with
  | nil => simp [bound]
  | cons c cs =>
    rw [bound, if_neg (by simp), Numeral.readInt_of_isDigit h, ← Numeral.readNat_eq_error]
    cases Numeral.readNat (c :: cs) <;> simp [Except.map]

theorem boundsOf_eq_error {lo hi : List Char} {f : Fault} (hlo : ∀ c ∈ lo, Text.isDigit c)
    (hhi : ∀ c ∈ hi, Text.isDigit c) :
    boundsOf lo hi = .error f ↔ f = .numeralTooLong ∧
      (Numeral.maxDigits < lo.length ∨ Numeral.maxDigits < hi.length) := by
  have hlow := fun f => bound_eq_error (f := f) hlo
  have hhigh := fun f => bound_eq_error (f := f) hhi
  unfold boundsOf
  cases hmin : bound lo with
  | error e =>
    obtain ⟨rfl, hlong⟩ := (hlow e).mp hmin
    simp [bind, Except.bind, hlong, eq_comm]
  | ok min =>
    have hshort : ¬ Numeral.maxDigits < lo.length := by
      intro hlong
      rw [(hlow .numeralTooLong).mpr ⟨rfl, hlong⟩] at hmin
      cases hmin
    rw [or_iff_right hshort, ← hhigh f]
    cases bound hi <;> simp [bind, Except.bind, pure, Except.pure]

/-- The front of a list: the word for a type of items, or options in parentheses. -/
def IsListFront (front : List Char) : Prop :=
  (∃ type : ItemType, front = type.name.toList) ∨
    ∃ body, body ≠ [] ∧ ')' ∉ body ∧ front = '(' :: body ++ [')']

/-- A list with bounds on its size, of which one has more digits than can be read. -/
def Oversized (cs : List Char) : Prop :=
  ∃ front size lo hi, cs = front ++ size ∧ IsListFront front ∧ IsSize size lo hi ∧
    (Numeral.maxDigits < lo.length ∨ Numeral.maxDigits < hi.length)

theorem after?_eq_some {word : String} {cs rest : List Char} :
    after? word cs = some rest ↔ cs = word.toList ++ rest := by
  unfold after?
  split_ifs with h
  · obtain ⟨tail, rfl⟩ := List.isPrefixOf_iff_prefix.mp h
    simp [eq_comm]
  · constructor
    · intro h
      cases h
    · rintro rfl
      exact absurd (List.isPrefixOf_iff_prefix.mpr (List.prefix_append _ _)) h

theorem bounded?_word (type : ItemType) (cs : List Char) :
    bounded? (type.name.toList ++ '[' :: cs) = none := by
  cases type <;> rfl

theorem array?_word (type : ItemType) {size lo hi : List Char} (h : size? size = some (lo, hi)) :
    array? (type.name.toList ++ size) = some (type, lo, hi) := by
  cases type <;> simp [array?, ItemType.all, ItemType.name, after?, h]

theorem choices?_options {body size lo hi : List Char} (hbody : body ≠ []) (hclose : ')' ∉ body)
    (h : size? size = some (lo, hi)) :
    choices? ('(' :: body ++ [')'] ++ size) = some (body, lo, hi) := by
  have hrun : ∀ c ∈ body, (c != ')') = true := by
    intro c hc
    simpa using ne_of_mem_of_not_mem hc hclose
  obtain ⟨htake, hdrop⟩ := Text.run_append (c := ')') hrun rfl size
  obtain ⟨c, cs, rfl⟩ := List.exists_cons_of_ne_nil hbody
  have hflat : '(' :: (c :: cs) ++ [')'] ++ size = '(' :: (c :: cs ++ ')' :: size) := by simp
  rw [hflat, choices?, htake, hdrop]
  simp [h]

theorem eq_of_array? {cs lo hi : List Char} {type : ItemType}
    (h : array? cs = some (type, lo, hi)) :
    ∃ size, cs = type.name.toList ++ size ∧ size? size = some (lo, hi) := by
  obtain ⟨type', -, h⟩ := List.exists_of_findSome?_eq_some h
  obtain ⟨rest, hrest, h⟩ := Option.bind_eq_some_iff.mp h
  obtain ⟨⟨lo', hi'⟩, hsize, h⟩ := Option.bind_eq_some_iff.mp h
  cases h
  exact ⟨rest, after?_eq_some.mp hrest, hsize⟩

theorem eq_of_choices? {cs body lo hi : List Char} (h : choices? cs = some (body, lo, hi)) :
    ∃ size, cs = '(' :: body ++ [')'] ++ size ∧ body ≠ [] ∧ ')' ∉ body ∧
      size? size = some (lo, hi) := by
  unfold choices? at h
  split at h
  · rename_i cs
    split at h
    · rename_i c body' stop rest htake hdrop
      obtain ⟨⟨lo', hi'⟩, hsize, h⟩ := Option.bind_eq_some_iff.mp h
      cases h
      have hcs := List.takeWhile_append_dropWhile (p := (· != ')')) (l := cs)
      have hstop : stop = ')' := by
        have hhead := List.head_dropWhile_not (p := (· != ')')) (l := cs) (by simp [hdrop])
        simpa [hdrop] using hhead
      refine ⟨rest, ?_, by simp, ?_, hsize⟩
      · rw [htake, hdrop, hstop] at hcs
        simp [← hcs]
      · rw [← htake]
        intro hmem
        simpa using List.mem_takeWhile_imp hmem
    · cases h
  · cases h

/-- What is in brackets after the front of a list is read as the bounds of its size. -/
theorem parseTrimmed_list {s : String} {front size lo hi : List Char}
    (hs : s.toList = front ++ size) (hfront : IsListFront front) (hsize : IsSize size lo hi) :
    ∃ range, parseTrimmed s = (boundsOf lo hi).map range := by
  have hread := size?_of_isSize hsize
  obtain ⟨points, -, rfl, -, -⟩ := hsize
  have hplain : (ScalarType.all.find? fun type => type.name == s) = none := by
    rw [List.find?_eq_none]
    intro type _ heq
    have hmem : '[' ∈ type.name.toList := by
      rw [eq_of_beq heq, hs]
      simp
    cases type <;> exact absurd hmem (by decide)
  unfold parseTrimmed
  rw [hplain, hs]
  rcases hfront with ⟨type, rfl⟩ | ⟨body, hbody, hclose, rfl⟩
  · have hbounded : boundedScalar? (type.name.toList ++ '[' :: (lo ++ (points ++ (hi ++ [']'])))) =
        none := by
      rw [boundedScalar?, bounded?_word]
      rfl
    rw [hbounded, array?_word type hread]
    exact ⟨_, rfl⟩
  · rw [choices?_options hbody hclose hread]
    exact ⟨.choices (options (String.ofList body)), rfl⟩

theorem oversized_of_boundsOf {cs front size lo hi : List Char} {range : Bounds → Range} {f : Fault}
    (hcs : cs = front ++ size) (hfront : IsListFront front) (hsize : size? size = some (lo, hi))
    (h : (boundsOf lo hi).map range = .error f) : f = .numeralTooLong ∧ Oversized cs := by
  have herror : boundsOf lo hi = .error f := Fault.map_eq_error.mp h
  rcases isSize_of_size? hsize with ⟨-, rfl, rfl⟩ | hbracket
  · cases herror
  · have ⟨_, _, _, hlo, hhi⟩ := hbracket
    obtain ⟨rfl, hlong⟩ := (boundsOf_eq_error hlo hhi).mp herror
    exact ⟨rfl, front, size, lo, hi, hcs, hfront, hbracket, hlong⟩

/-- The texts in which a numeral is too long are the lists with such a bound. -/
theorem parseTrimmed_eq_error {s : String} {f : Fault} :
    parseTrimmed s = .error f ↔ f = .numeralTooLong ∧ Oversized s.toList := by
  constructor
  · intro h
    unfold parseTrimmed at h
    split at h
    · cases h
    · split at h
      · cases h
      · split at h
        · rename_i type lo hi harray
          obtain ⟨size, hs, hsize⟩ := eq_of_array? harray
          exact oversized_of_boundsOf hs (.inl ⟨type, rfl⟩) hsize h
        · split at h
          · rename_i body lo hi hchoices
            obtain ⟨size, hs, hbody, hclose, hsize⟩ := eq_of_choices? hchoices
            exact oversized_of_boundsOf hs (.inr ⟨body, hbody, hclose, rfl⟩) hsize h
          · split_ifs at h
  · rintro ⟨rfl, front, size, lo, hi, hs, hfront, hsize, hlong⟩
    obtain ⟨range, hparse⟩ := parseTrimmed_list hs hfront hsize
    obtain ⟨points, -, -, hlo, hhi⟩ := hsize
    rw [hparse, (boundsOf_eq_error hlo hhi).mpr ⟨rfl, hlong⟩]
    rfl

theorem parse_eq_error {s : String} {f : Fault} :
    parse s = .error f ↔ f = .numeralTooLong ∧ Oversized (Text.trimChars s.toList) := by
  unfold parse
  split_ifs with hblank
  · have hnone : ¬ Oversized (Text.trimChars s.toList) := by
      rintro ⟨front, size, lo, hi, hs, hfront, ⟨points, -, rfl, -, -⟩, -⟩
      rw [← Text.toList_trim, hblank] at hs
      simp at hs
    simp [hnone]
  · rw [parseTrimmed_eq_error, Text.toList_trim]

end Range

end FieldRules
