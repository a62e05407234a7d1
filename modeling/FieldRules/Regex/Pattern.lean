import FieldRules.Text.Alphanumeric
import FieldRules.Text.Blank
import FieldRules.Text.Case
import FieldRules.Text.Digit

/-!
Regular expressions: sets of characters, and patterns built from them.
-/

namespace FieldRules.Regex

/-- How letters that differ in case compare. -/
inductive Folding
  /-- They differ. -/
  | exact
  /-- The letters `A` to `Z` compare as in lower case. -/
  | ascii
  /-- All letters compare as in lower case. -/
  | full
  deriving DecidableEq

/-- Lower-case letters that share their upper case with others, and those others. -/
def twins : List (Nat × List Nat) := [
  (0x69, [0x131]), (0x73, [0x17f]), (0xb5, [0x3bc]), (0x131, [0x69]), (0x17f, [0x73]),
  (0x345, [0x3b9, 0x1fbe]), (0x390, [0x1fd3]), (0x3b0, [0x1fe3]), (0x3b2, [0x3d0]),
  (0x3b5, [0x3f5]), (0x3b8, [0x3d1]), (0x3b9, [0x345, 0x1fbe]), (0x3ba, [0x3f0]),
  (0x3bc, [0xb5]), (0x3c0, [0x3d6]), (0x3c1, [0x3f1]), (0x3c2, [0x3c3]), (0x3c3, [0x3c2]),
  (0x3c6, [0x3d5]), (0x3d0, [0x3b2]), (0x3d1, [0x3b8]), (0x3d5, [0x3c6]), (0x3d6, [0x3c0]),
  (0x3f0, [0x3ba]), (0x3f1, [0x3c1]), (0x3f5, [0x3b5]), (0x432, [0x1c80]), (0x434, [0x1c81]),
  (0x43e, [0x1c82]), (0x441, [0x1c83]), (0x442, [0x1c84, 0x1c85]), (0x44a, [0x1c86]),
  (0x463, [0x1c87]), (0x1c80, [0x432]), (0x1c81, [0x434]), (0x1c82, [0x43e]), (0x1c83, [0x441]),
  (0x1c84, [0x442, 0x1c85]), (0x1c85, [0x442, 0x1c84]), (0x1c86, [0x44a]), (0x1c87, [0x463]),
  (0x1c88, [0xa64b]), (0x1e61, [0x1e9b]), (0x1e9b, [0x1e61]), (0x1fbe, [0x345, 0x3b9]),
  (0x1fd3, [0x390]), (0x1fe3, [0x3b0]), (0xa64b, [0x1c88]), (0xfb05, [0xfb06]),
  (0xfb06, [0xfb05])]

namespace Folding

/-- The code point that stands for a letter in comparisons. -/
def lower : Folding → Nat → Nat
  | .exact, n => n
  | .ascii, n => if 0x41 ≤ n ∧ n ≤ 0x5a then n + 0x20 else n
  | .full, n => Text.lowerCode n

/-- Whether a code point has another case. -/
def isCased : Folding → Nat → Bool
  | .exact, _ => false
  | .ascii, n => decide (0x41 ≤ n ∧ n ≤ 0x5a ∨ 0x61 ≤ n ∧ n ≤ 0x7a)
  | .full, n => Text.isCasedCode n

/-- The code points in lower case that compare like a given one. -/
def classOf : Folding → Nat → List Nat
  | .full, n => n :: (twins.lookup n).getD []
  | _, n => [n]

/-- Whether some code point between two bounds has another case. -/
def anyCased : Folding → Nat → Nat → Bool
  | .exact, _, _ => false
  | .ascii, lo, hi => decide (lo ≤ 0x5a ∧ 0x41 ≤ hi ∨ lo ≤ 0x7a ∧ 0x61 ≤ hi)
  | .full, lo, hi =>
    (Text.lowerRuns ++ Text.upperRuns).any fun r =>
      let skipped := (lo - r.first + r.step - 1) / r.step
      let first := r.first + skipped * r.step
      decide (first ≤ r.last ∧ first ≤ hi)

/-- Whether a code point is the lower case of one between two bounds. -/
def lowersInto : Folding → Nat → Nat → Nat → Bool
  | .exact, lo, hi, n => decide (lo ≤ n ∧ n ≤ hi)
  | .ascii, lo, hi, n =>
    (decide (lo ≤ n ∧ n ≤ hi) && lower .ascii n == n) ||
      (decide (0x61 ≤ n ∧ n ≤ 0x7a) && decide (lo ≤ n - 0x20 ∧ n - 0x20 ≤ hi))
  | .full, lo, hi, n =>
    (decide (lo ≤ n ∧ n ≤ hi) && lower .full n == n) ||
      Text.lowerRuns.any fun r =>
        let source := ((n : Int) - r.offset).toNat
        r.covers source && lower .full source == n && decide (lo ≤ source ∧ source ≤ hi)

end Folding

/-- A kind of character. -/
inductive Category
  | digit
  | space
  | word
  deriving DecidableEq

/-- Whether a code point is of a kind, among all characters or only among the first 128. -/
def Category.holds (ascii : Bool) (n : Nat) : Category → Bool
  | .digit => if ascii then decide (0x30 ≤ n ∧ n ≤ 0x39) else Text.digitRanges.holds n
  | .space =>
    if ascii then n == 0x20 || decide (9 ≤ n ∧ n ≤ 13) else Text.blankRanges.holds n
  | .word =>
    n == 0x5f ||
      if ascii then decide (0x30 ≤ n ∧ n ≤ 0x39 ∨ 0x41 ≤ n ∧ n ≤ 0x5a ∨ 0x61 ≤ n ∧ n ≤ 0x7a)
      else Text.alphanumericRanges.holds n

/-- A part of a set of characters. -/
inductive SetItem
  | code (n : Nat)
  | range (lo hi : Nat)
  | category (kind : Category) (negated : Bool)
  deriving DecidableEq

/-- A set of characters, or of all others. -/
structure CharSet where
  negated : Bool
  items : List SetItem
  folding : Folding
  ascii : Bool

namespace CharSet

/-- The last code point of the basic plane. -/
def lastBasic : Nat := 0xffff

/-- Whether a part of a set makes comparisons go by lower case. -/
def folds (f : Folding) : SetItem → Bool
  | .code n => decide (lastBasic < f.lower n) || f.isCased n
  | .range lo hi => decide (lastBasic < hi) || f.anyCased lo hi
  | .category _ _ => false

/-- Whether a part of a set holds a code point as it is. -/
def holdsPlain (ascii : Bool) (n : Nat) : SetItem → Bool
  | .code m => m == n
  | .range lo hi => decide (lo ≤ n ∧ n ≤ hi)
  | .category kind negated => kind.holds ascii n != negated

/-- Whether a part of a set holds a code point in lower case. Beyond the basic plane a range is
tried in both cases. -/
def holdsLower (f : Folding) (ascii : Bool) (n : Nat) : SetItem → Bool
  | .code m =>
    if lastBasic < f.lower m then m == n else (f.classOf (f.lower m)).contains n
  | .range lo hi =>
    (f.classOf n).any (f.lowersInto lo hi) ||
      (decide (lastBasic < hi) &&
        (decide (lo ≤ n ∧ n ≤ hi) || decide (lo ≤ Text.upperCode n ∧ Text.upperCode n ≤ hi)))
  | .category kind negated => kind.holds ascii n != negated

/-- Whether a code point compares like the only one of a set. -/
def matchesOnly (f : Folding) (only n : Nat) : Bool :=
  if f.isCased only then (f.classOf (f.lower only)).contains (f.lower n) else only == n

/-- Whether a character is in the set. -/
def holds (s : CharSet) (c : Char) : Bool :=
  let found :=
    match s.items.eraseDups with
    | [.code only] => matchesOnly s.folding only c.toNat
    | items =>
      if items.any (folds s.folding) && s.folding != .exact then
        items.any (holdsLower s.folding s.ascii (s.folding.lower c.toNat))
      else items.any (holdsPlain s.ascii c.toNat)
  found != s.negated

end CharSet

/-- A condition on a place in a text. -/
inductive Anchor
  | textStart
  | textEnd
  | lineStart
  | lineEnd
  /-- At the end, or before a line break at the end. -/
  | lastLineEnd
  | wordEdge (ascii : Bool)
  | noWordEdge (ascii : Bool)
  deriving DecidableEq

/-- Which of its matches a repetition tries first, or keeps. -/
inductive Eagerness
  | greedy
  | lazy
  | possessive
  deriving DecidableEq

/-- A regular expression. -/
inductive Pattern
  | empty
  | one (set : CharSet)
  /-- Any character; a line break only when it is asked for. -/
  | any (lineBreaks : Bool)
  | anchor (a : Anchor)
  | seq (first second : Pattern)
  | alt (first second : Pattern)
  | group (index : Nat) (body : Pattern)
  /-- The text that a group has matched. -/
  | same (index : Nat) (folding : Folding)
  /-- One of two patterns, by whether a group has matched. -/
  | ifMatched (index : Nat) (yes no : Pattern)
  | ahead (negated : Bool) (body : Pattern)
  /-- A look at the given number of characters before a place. -/
  | behind (negated : Bool) (width : Nat) (body : Pattern)
  /-- A pattern of which only the first match counts. -/
  | atomic (body : Pattern)
  | loop (eagerness : Eagerness) (min : Nat) (max : Option Nat) (body : Pattern)

end FieldRules.Regex
