import FieldRules.Text.Blank
import FieldRules.Numeral
import FieldRules.Text.Split

/-!
Ranges of values. A text in the language of ranges always stands for some range: what it does not
know as a form of its own is read as the most permissive one.
-/

namespace FieldRules

/-- What a single value can be. -/
inductive ScalarType
  | string
  | boolean
  | integer
  | url
  deriving DecidableEq

/-- The name of a type. -/
def ScalarType.name : ScalarType → String
  | .string => "string"
  | .boolean => "boolean"
  | .integer => "integer"
  | .url => "url"

/-- All types of single values. -/
def ScalarType.all : List ScalarType :=
  [.string, .boolean, .integer, .url]

/-- What the items of a list can be. -/
inductive ItemType
  | string
  | integer
  deriving DecidableEq

/-- The name of a type of items. -/
def ItemType.name : ItemType → String
  | .string => "string"
  | .integer => "integer"

/-- All types of items. -/
def ItemType.all : List ItemType :=
  [.string, .integer]

/-- Bounds, each of which may be missing. -/
structure Bounds where
  min : Option Int := none
  max : Option Int := none
  deriving DecidableEq

/-- Whether a number lies within bounds. -/
def Bounds.hold (b : Bounds) (n : Int) : Bool :=
  (match b.min with
    | some lo => decide (lo ≤ n)
    | none => true) &&
  match b.max with
  | some hi => decide (n ≤ hi)
  | none => true

/-- A set of values. -/
inductive Range
  /-- One value; the bounds are on the length of a text or on a number. -/
  | scalar (type : ScalarType) (bounds : Bounds)
  /-- A list of items of one type, with bounds on its size. -/
  | array (type : ItemType) (size : Bounds)
  /-- One of some options. -/
  | choice (options : List String)
  /-- A list of options, with bounds on its size. -/
  | choices (options : List String) (size : Bounds)
  /-- A text that a regular expression matches. -/
  | pattern (regex : String)
  deriving DecidableEq

namespace Range

/-- Any text. -/
def anyText : Range :=
  .scalar .string {}

/-- The bound that digits stand for, none when there are no digits. -/
def bound (cs : List Char) : Except Fault (Option Int) :=
  if cs.isEmpty then .ok none else (Numeral.readInt cs).map some

/-- Two bounds. -/
def boundsOf (lo hi : List Char) : Except Fault Bounds := do
  let min ← bound lo
  let max ← bound hi
  return { min, max }

/-- An optional minus sign and digits, and what follows them. -/
def signedDigits : List Char → List Char × List Char
  | '-' :: cs => ('-' :: cs.takeWhile Text.isDigit, cs.dropWhile Text.isDigit)
  | cs => (cs.takeWhile Text.isDigit, cs.dropWhile Text.isDigit)

/-- The texts of the bounds in `(lo..hi)`. -/
def interval? : List Char → Option (List Char × List Char)
  | '(' :: cs =>
    match signedDigits cs with
    | (lo, '.' :: '.' :: cs) =>
      match signedDigits cs with
      | (hi, [')']) => some (lo, hi)
      | _ => none
    | _ => none
  | _ => none

/-- The texts of the bounds in `[]`, `[lo.hi]` or `[lo..hi]`. -/
def size? : List Char → Option (List Char × List Char)
  | ['[', ']'] => some ([], [])
  | '[' :: cs =>
    match cs.dropWhile Text.isDigit with
    | '.' :: rest =>
      let rest := match rest with
        | '.' :: rest => rest
        | rest => rest
      if rest.dropWhile Text.isDigit = [']'] then
        some (cs.takeWhile Text.isDigit, rest.takeWhile Text.isDigit)
      else none
    | _ => none
  | _ => none

/-- What follows a word at the front of a text. -/
def after? (word : String) (cs : List Char) : Option (List Char) :=
  if word.toList.isPrefixOf cs then some (cs.drop word.toList.length) else none

/-- The types that may have bounds, by their words. -/
def boundedTypes : List (String × ScalarType) :=
  [("string", .string), ("integer", .integer), ("number", .integer)]

/-- The type and the texts of the bounds of a bounded single value. -/
def bounded? (cs : List Char) : Option (ScalarType × List Char × List Char) :=
  boundedTypes.findSome? fun (word, type) => do
    let rest ← after? word cs
    let (lo, hi) ← interval? rest
    return (type, lo, hi)

/-- The type and the texts of the bounds of a list. -/
def array? (cs : List Char) : Option (ItemType × List Char × List Char) :=
  ItemType.all.findSome? fun type => do
    let rest ← after? type.name cs
    let (lo, hi) ← size? rest
    return (type, lo, hi)

/-- The options and the texts of the bounds of a list of options. -/
def choices? : List Char → Option (List Char × List Char × List Char)
  | '(' :: cs =>
    match cs.takeWhile (· != ')'), cs.dropWhile (· != ')') with
    | c :: body, _ :: rest => do
      let (lo, hi) ← size? rest
      return (c :: body, lo, hi)
    | _, _ => none
  | _ => none

/-- The options of a text, between double bars or between spaced slashes. -/
def options (s : String) : List String :=
  if Text.occursIn "||".toList s.toList then Text.split "||" s
  else (Text.split " / " s).map Text.trim

/-- First characters by which a text shows itself as a regular expression. -/
def regexFirst : List Char :=
  ['^', '[', '(', '\\', '.']

/-- Last characters by which a text shows itself as a regular expression. -/
def regexLast : List Char :=
  ['$', ']', ')', '*', '+', '?', '\x7d']

/-- Whether a text shows itself as a regular expression. -/
def looksLikeRegex (cs : List Char) : Bool :=
  (cs.head?.any regexFirst.contains) || (cs.getLast?.any regexLast.contains)

/-- The single value with bounds that a text stands for. A bound that is no number makes it
something else. -/
def boundedScalar? (cs : List Char) : Option Range := do
  let (type, lo, hi) ← bounded? cs
  if lo = ['-'] ∨ hi = ['-'] then none
  else
    match boundsOf lo hi with
    | .ok bounds => some (.scalar type bounds)
    | .error _ => none

/-- The range of a text that has no blanks at its ends and is not empty. -/
def parseTrimmed (s : String) : Except Fault Range :=
  match ScalarType.all.find? fun type => type.name == s with
  | some type => .ok (.scalar type {})
  | none =>
    match boundedScalar? s.toList with
    | some range => .ok range
    | none =>
      match array? s.toList with
      | some (type, lo, hi) => (boundsOf lo hi).map (.array type)
      | none =>
        match choices? s.toList with
        | some (body, lo, hi) => (boundsOf lo hi).map (.choices (options (String.ofList body)))
        | none =>
          if Text.occursIn "||".toList s.toList ∨ Text.occursIn " / ".toList s.toList then
            .ok (.choice (options s))
          else if looksLikeRegex s.toList then .ok (.pattern s)
          else .ok anyText

/-- The range that a text stands for. -/
def parse (s : String) : Except Fault Range :=
  if Text.trim s = "" then .ok anyText else parseTrimmed (Text.trim s)

end Range

end FieldRules
