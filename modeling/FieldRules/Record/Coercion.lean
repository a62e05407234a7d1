import FieldRules.Entries
import FieldRules.Numeral
import FieldRules.Record.Verdict
import FieldRules.Text.Blank
import FieldRules.Text.Case
import FieldRules.Value

/-!
Reading parts of records. A value of a neighbouring kind is accepted where its meaning is plain:
a truth value may be a word or one of the numbers 0 and 1, an integer may be an integral number
or a numeral.
-/

namespace FieldRules.Record

/-- A way to read a value. -/
abbrev Coercion (α : Type) := Value → Verdict α

namespace Coercion

variable {α : Type}

/-- Any value, as it is. -/
def any : Coercion Value :=
  .accepted

/-- A text. -/
def text : Coercion String
  | .text s => .accepted s
  | _ => .refuse .notText

/-- The words for true and for false, in lower case. -/
def boolWords : List (String × Bool) :=
  [("0", false), ("off", false), ("f", false), ("false", false), ("n", false), ("no", false),
    ("1", true), ("on", true), ("t", true), ("true", true), ("y", true), ("yes", true)]

/-- A character with the letters `A` to `Z` in lower case. -/
def lowerLetter (c : Char) : Char :=
  if 'A' ≤ c ∧ c ≤ 'Z' then Char.ofNat (c.toNat + 32) else c

/-- A truth value: itself, a word in any case, or one of the numbers 0 and 1. -/
def bool : Coercion Bool
  | .bool b => .accepted b
  | .text s =>
    match Entries.get? boolWords (String.ofList (s.toList.map lowerLetter)) with
    | some b => .accepted b
    | none => .refuse .unreadableBool
  | .int 0 => .accepted false
  | .int 1 => .accepted true
  | .int i =>
    if (Double.nearest false i.natAbs 1).toInt?.isSome then .refuse .unreadableBool
    else .refuse .notBool
  | .double d =>
    match d.toInt? with
    | some 0 => .accepted false
    | some 1 => .accepted true
    | some _ => .refuse .unreadableBool
    | none => .refuse .notBool
  | _ => .refuse .notBool

/-- The digits of a numeral without leading noughts; an underscore among those is dropped too. -/
def skipNoughts : List Char → List Char
  | '0' :: cs =>
    match cs.dropWhile fun c => c == '0' || c == '_' with
    | [] => if cs.getLast? = some '_' then ['_'] else ['0']
    | '.' :: ds => '0' :: '.' :: ds
    | ds => ds
  | cs => cs

/-- A numeral without a fraction of noughts. -/
def skipFraction (cs : List Char) : List Char :=
  match cs.dropWhile (· != '.') with
  | '.' :: ds =>
    if !ds.isEmpty && ds.all (· == '0') then cs.takeWhile (· != '.') else cs
  | _ => cs

/-- Digits in which single underscores separate groups. -/
def ungroup : List Char → Option (List Char)
  | [] => some []
  | '_' :: c :: cs => if c = '_' then none else ungroup (c :: cs)
  | c :: cs => if '0' ≤ c ∧ c ≤ '9' then (ungroup cs).map (c :: ·) else none

/-- The digits of a numeral without a minus sign, if it is one. -/
def unsignedDigits? (cs : List Char) : Option (List Char) :=
  match skipFraction (skipNoughts cs) with
  | [] => none
  | '_' :: _ => none
  | ds => ungroup ds

/-- The digits of a numeral after its minus sign. They have no leading noughts. -/
def negativeDigits? (cs : List Char) : Option (List Char) := do
  let ds ← ungroup (skipFraction cs)
  if ds = ['0'] ∨ (ds ≠ [] ∧ ds.head? ≠ some '0') then some ds else none

/-- The integer with these digits, unless they are too many. -/
def ofDigits (negative : Bool) : Option (List Char) → Verdict Int
  | none => .refuse .unreadableInt
  | some ds =>
    if ds.length ≤ Numeral.maxDigits then
      .accepted (if negative then -(Numeral.value ds : Int) else Numeral.value ds)
    else .refuse .oversizedInt

/-- An integer: itself, a truth value as 0 or 1, an integral number, or a numeral that may have a
sign, blanks around it, underscores between its digits and a fraction of noughts. -/
def int : Coercion Int
  | .int i => .accepted i
  | .bool b => .accepted (if b then 1 else 0)
  | .double (.finite negative m e) =>
    match (Double.finite negative m e).toInt? with
    | some i => if i.natAbs < Nat.pow 2 63 then .accepted i else .refuse .oversizedInt
    | none => .refuse .fractionalInt
  | .double _ => .refuse .infiniteInt
  | .text s =>
    match Text.trimChars s.toList with
    | '+' :: ds => ofDigits false (unsignedDigits? ds)
    | '-' :: ds => ofDigits true (negativeDigits? ds)
    | ds => ofDigits false (unsignedDigits? ds)
  | _ => .refuse .notInt

/-- One of the values with a name. -/
def oneOf (cause : Cause) (name : α → String) (choices : List α) : Coercion α
  | .text s =>
    match choices.find? fun a => name a == s with
    | some a => .accepted a
    | none => .refuse cause
  | _ => .refuse cause

/-- A value that may be absent. -/
def optional (c : Coercion α) : Coercion (Option α)
  | .null => .accepted none
  | v => (c v).map some

/-- Every item of a list, with its index as its place. -/
def items (c : Coercion α) (xs : List Value) : Verdict (List α) :=
  .all (xs.mapIdx fun i x => (c x).under (toString i))

/-- A list. -/
def list (c : Coercion α) : Coercion (List α)
  | .list xs => items c xs
  | _ => .refuse .notList

/-- A list of fixed alternatives. -/
def tuple (c : Coercion α) : Coercion (List α)
  | .list xs => items c xs
  | _ => .refuse .notTuple

/-- A list with at least one item. -/
def nonempty (c : Coercion α) : Coercion { xs : List α // xs ≠ [] }
  | .list [] => .refuse .tooShort
  | v => (list c v).andThen fun xs =>
    if h : xs ≠ [] then .accepted ⟨xs, h⟩ else .refuse .tooShort

/-- A mapping of any values. -/
def map : Coercion (Entries Value)
  | .map es => .accepted es
  | _ => .refuse .notMap

/-- A record, from the entries of a mapping. -/
def record (f : Entries Value → Verdict α) : Coercion α
  | .map es => f es
  | _ => .refuse .notRecord

/-- A record of the kind that its tag names, with that name as its place. -/
def tagged (key : String) (readers : List (String × (Entries Value → Verdict α))) : Coercion α
  | .map es =>
    match Entries.get? es key with
    | none => .refuse .tagMissing
    | some (.text tag) =>
      match Entries.get? readers tag with
      | some reader => (reader es).under tag
      | none => .refuse .tagUnknown
    | some _ => .refuse .tagUnknown
  | _ => .refuse .notTagged

/-- An item of a field's list: a text or a number, or a truth value as 0 or 1. -/
def item? : Value → Option Value
  | .text s => some (.text s)
  | .int i => some (.int i)
  | .double d => some (.double d)
  | .bool b => some (.int (if b then 1 else 0))
  | _ => none

/-- A value of a field: a text, a truth value, a number, or a list of texts and numbers. -/
def value : Coercion Value
  | .text s => .accepted (.text s)
  | .bool b => .accepted (.bool b)
  | .int i => .accepted (.int i)
  | .double d => .accepted (.double d)
  | .list xs =>
    match xs.mapM item? with
    | some xs => .accepted (.list xs)
    | none => .refuse .noAlternative
  | _ => .refuse .noAlternative

end Coercion

/-- The value under the first of several keys that is there. -/
def lookUp (es : Entries Value) (keys : List String) : Option Value :=
  keys.findSome? (Entries.get? es)

/-- A part that must be there. -/
def need {α : Type} (es : Entries Value) (key : String) (c : Coercion α) : Verdict α :=
  match Entries.get? es key with
  | some v => (c v).under key
  | none => (Verdict.refuse .missing).under key

/-- A part with a value to take when it is not there. The first key names its place; other keys
are read when the first is not there. -/
def part {α : Type} (es : Entries Value) (key : String) (others : List String) (default : α)
    (c : Coercion α) : Verdict α :=
  match lookUp es (key :: others) with
  | some v => (c v).under key
  | none => .accepted default

/-- Whether there are no other keys. -/
def only (keys : List String) (es : Entries Value) : Verdict Unit :=
  match es.filter fun e => !keys.contains e.1 with
  | [] => .accepted ()
  | others => .refused (others.map fun e => ⟨[e.1], .unexpectedKey⟩)

end FieldRules.Record
