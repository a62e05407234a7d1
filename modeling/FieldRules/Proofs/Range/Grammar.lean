import FieldRules.Proofs.Range.Size
import FieldRules.Proofs.Text.Cut
import Mathlib.Data.Nat.Digits.Defs

/-! The language of ranges. Its forms are tried one after another, and a text stands for what the
first form that it has makes of it. -/
namespace FieldRules.Range

/-- The number that a row of decimal digits stands for. -/
def decimal (ds : List Char) : ℕ :=
  Nat.ofDigits 10 (ds.map fun d => (Text.digitValue? d).getD 0).reverse

/-- Decimal digits of any script, at least one. -/
def IsNumeral (ds : List Char) : Prop :=
  ds ≠ [] ∧ ∀ d ∈ ds, Text.isDigit d

/-- What is written for a bound, and the bound: nothing for none, and else digits, perhaps after a
minus sign. -/
inductive IsBound : List Char → Option ℤ → Prop
  | none : IsBound [] none
  | plain {ds : List Char} (h : IsNumeral ds) : IsBound ds (some (decimal ds))
  | minus {ds : List Char} (h : IsNumeral ds) : IsBound ('-' :: ds) (some (-(decimal ds : ℤ)))

/-- The words for single values with bounds. -/
inductive BoundedWord : String → ScalarType → Prop
  | string : BoundedWord "string" .string
  | integer : BoundedWord "integer" .integer
  | number : BoundedWord "number" .integer

/-- Two bounds in parentheses. -/
def parens (lo hi : List Char) : List Char :=
  '(' :: (lo ++ '.' :: '.' :: (hi ++ [')']))

/-- Square brackets, and the bounds on a size that stand in them. -/
inductive IsSized : List Char → Bounds → Prop
  | empty : IsSized ['[', ']'] {}
  | bounds {cs lo hi : List Char} {min max : Option ℤ} (h : IsSize cs lo hi)
      (hlo : IsBound lo min) (hhi : IsBound hi max) : IsSized cs ⟨min, max⟩

/-- Options stand between double bars, or where there are none, between spaced slashes. -/
inductive IsOptions (t : String) : List String → Prop
  | bars {parts : List String} (h : "||".toList <:+: t.toList) (hcut : Text.Cuts "||" t parts) :
      IsOptions t parts
  | slashes {parts : List String} (h : ¬ "||".toList <:+: t.toList)
      (hcut : Text.Cuts " / " t parts) : IsOptions t (parts.map Text.trim)

/-- An empty text is any text. -/
def IsEmpty (t : String) (r : Range) : Prop :=
  t = "" ∧ r = .scalar .string {}

/-- The word for a type. -/
def IsWord (t : String) (r : Range) : Prop :=
  ∃ type : ScalarType, t = type.name ∧ r = .scalar type {}

/-- A word with bounds in parentheses. -/
inductive IsBounded (t : String) : Range → Prop
  | intro {word : String} {type : ScalarType} {lo hi : List Char} {min max : Option ℤ}
      (hword : BoundedWord word type) (ht : t.toList = word.toList ++ parens lo hi)
      (hlo : IsBound lo min) (hhi : IsBound hi max) : IsBounded t (.scalar type ⟨min, max⟩)

/-- The word for a type of items, with square brackets after it. -/
inductive IsArray (t : String) : Range → Prop
  | intro {type : ItemType} {cs : List Char} {size : Bounds}
      (ht : t.toList = type.name.toList ++ cs) (hsize : IsSized cs size) :
      IsArray t (.array type size)

/-- Options in parentheses, with square brackets after them. -/
inductive IsChoices (t : String) : Range → Prop
  | intro {body : String} {cs : List Char} {size : Bounds} {options : List String}
      (ht : t.toList = '(' :: body.toList ++ [')'] ++ cs) (hbody : body ≠ "")
      (hclose : ')' ∉ body.toList) (hsize : IsSized cs size) (hoptions : IsOptions body options) :
      IsChoices t (.choices options size)

/-- A text in which options can be told apart. -/
inductive IsChoice (t : String) : Range → Prop
  | intro {options : List String} (h : "||".toList <:+: t.toList ∨ " / ".toList <:+: t.toList)
      (hoptions : IsOptions t options) : IsChoice t (.choice options)

/-- A text that starts or ends like a regular expression. -/
def IsPattern (t : String) (r : Range) : Prop :=
  ((∃ c ∈ ['^', '[', '(', '\\', '.'], t.toList.head? = some c) ∨
    ∃ c ∈ ['$', ']', ')', '*', '+', '?', '\x7d'], t.toList.getLast? = some c) ∧ r = .pattern t

/-- Whatever is left is any text. -/
def IsOther (_ : String) (r : Range) : Prop :=
  r = .scalar .string {}

/-- The forms of texts, in the order in which they are tried. -/
def forms : List (String → Range → Prop) :=
  [IsEmpty, IsWord, IsBounded, IsArray, IsChoices, IsChoice, IsPattern, IsOther]

/-- A range is what a text stands for in the first of some forms that it has. -/
inductive First (t : String) (r : Range) : List (String → Range → Prop) → Prop
  | here {form : String → Range → Prop} {rest : List (String → Range → Prop)} (h : form t r) :
      First t r (form :: rest)
  | later {form : String → Range → Prop} {rest : List (String → Range → Prop)}
      (hnone : ∀ r', ¬ form t r') (h : First t r rest) : First t r (form :: rest)

/-- The texts of two bounds stand in a text. -/
inductive HasBounds (t : String) (lo hi : List Char) : Prop
  | interval {word : String} {type : ScalarType} {min max : Option ℤ}
      (hword : BoundedWord word type) (ht : t.toList = word.toList ++ parens lo hi)
      (hlo : IsBound lo min) (hhi : IsBound hi max)
  | size {front cs : List Char} (hfront : IsListFront front) (ht : t.toList = front ++ cs)
      (hsize : IsSize cs lo hi)

/-- No bound in a text has more digits than can be read. -/
def Concise (t : String) : Prop :=
  ∀ lo hi, HasBounds t lo hi → lo.countP Text.isDigit ≤ Numeral.maxDigits ∧
    hi.countP Text.isDigit ≤ Numeral.maxDigits

variable {t : String} {r r' : Range} {cs lo hi : List Char} {min max : Option ℤ}

section Forms

variable {form : String → Range → Prop} {rest : List (String → Range → Prop)}

theorem first_of_none (hnone : ∀ r, ¬ form t r) : First t r (form :: rest) ↔ First t r rest := by
  constructor
  · rintro (h | ⟨-, h⟩)
    · exact absurd h (hnone r)
    · exact h
  · exact .later hnone

theorem first_of_iff {x : Except Fault Range} (hform : ∀ r, form t r ↔ x = .ok r)
    (hx : ∃ r, x = .ok r) : First t r (form :: rest) ↔ x = .ok r := by
  rw [← hform r]
  constructor
  · rintro (h | ⟨hnone, -⟩)
    · exact h
    · obtain ⟨r', hr'⟩ := hx
      exact absurd ((hform r').mpr hr') (hnone r')
  · exact .here

end Forms

theorem countP_of_isNumeral (h : IsNumeral cs) : cs.countP Text.isDigit = cs.length :=
  List.countP_eq_length.mpr h.2

theorem countP_le_of_isBound (h : IsBound cs min) (hgroups : ∀ ds, ds <:+: cs →
    (∀ d ∈ ds, Text.isDigit d) → ds.length ≤ Numeral.maxDigits) :
    cs.countP Text.isDigit ≤ Numeral.maxDigits := by
  cases h with
  | none => exact Nat.zero_le _
  | plain h =>
    rw [countP_of_isNumeral h]
    exact hgroups cs List.infix_rfl h.2
  | @minus ds h =>
    have hminus : ¬ Text.isDigit '-' = true := by decide
    rw [List.countP_cons_of_neg hminus, countP_of_isNumeral h]
    exact hgroups ds (List.suffix_cons _ _).isInfix h.2

/-- A text in which no row of digits is too long has no bound that is. -/
theorem concise_of_groups (hgroups : ∀ ds, ds <:+: t.toList → (∀ d ∈ ds, Text.isDigit d) →
    ds.length ≤ Numeral.maxDigits) : Concise t := by
  rintro lo hi (@⟨word, _, _, _, _, ht, hmin, hmax⟩ | @⟨front, cs, _, ht, hsize⟩)
  · have hlo : lo <:+: t.toList := ⟨word.toList ++ ['('], '.' :: '.' :: (hi ++ [')']), by
      simp [ht, parens]⟩
    have hhi : hi <:+: t.toList := ⟨word.toList ++ '(' :: (lo ++ ['.', '.']), [')'], by
      simp [ht, parens]⟩
    exact ⟨countP_le_of_isBound hmin fun ds hds => hgroups ds (hds.trans hlo),
      countP_le_of_isBound hmax fun ds hds => hgroups ds (hds.trans hhi)⟩
  · obtain ⟨points, -, rfl, hdigits, hdigits'⟩ := hsize
    have hlo : lo <:+: t.toList := ⟨front ++ ['['], points ++ (hi ++ [']']), by simp [ht]⟩
    have hhi : hi <:+: t.toList := ⟨front ++ '[' :: (lo ++ points), [']'], by simp [ht]⟩
    exact ⟨List.countP_le_length.trans (hgroups lo hlo hdigits),
      List.countP_le_length.trans (hgroups hi hhi hdigits')⟩

end FieldRules.Range
