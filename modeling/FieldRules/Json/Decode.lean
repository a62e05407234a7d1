import FieldRules.Double
import FieldRules.Numeral
import FieldRules.Value

/-!
Values from JSON. The text is cut into tokens, then read by recursive descent. Numbers may also be
given by the names of those that have no digits.
-/

namespace FieldRules.Json

/-- The parts of a JSON text. -/
inductive Token
  | openList
  | closeList
  | openMap
  | closeMap
  | comma
  | colon
  | atom (v : Value)

/-- The value of a hexadecimal digit. -/
def hexValue? (c : Char) : Option Nat :=
  if '0' ≤ c ∧ c ≤ '9' then some (c.toNat - '0'.toNat)
  else if 'a' ≤ c ∧ c ≤ 'f' then some (c.toNat - 'a'.toNat + 10)
  else if 'A' ≤ c ∧ c ≤ 'F' then some (c.toNat - 'A'.toNat + 10)
  else none

/-- A 16-bit unit from four hexadecimal digits. -/
def unit? (a b c d : Char) : Option Nat := do
  let a ← hexValue? a
  let b ← hexValue? b
  let c ← hexValue? c
  let d ← hexValue? d
  return ((a * 16 + b) * 16 + c) * 16 + d

/-- The character that a letter after a backslash stands for. -/
def unescape? : Char → Option Char
  | '"' => some '"'
  | '\\' => some '\\'
  | '/' => some '/'
  | 'b' => some '\x08'
  | 'f' => some '\x0c'
  | 'n' => some '\n'
  | 'r' => some '\r'
  | 't' => some '\t'
  | _ => none

/-- The code units of a quoted text after its opening quote, and what follows the closing one.
Control characters must be escaped. -/
def quotedUnits : List Char → Option (List Nat × List Char)
  | [] => none
  | '"' :: rest => some ([], rest)
  | '\\' :: 'u' :: a :: b :: c :: d :: cs => do
    let n ← unit? a b c d
    let (ns, rest) ← quotedUnits cs
    return (n :: ns, rest)
  | '\\' :: c :: cs => do
    let c ← unescape? c
    let (ns, rest) ← quotedUnits cs
    return (c.toNat :: ns, rest)
  | c :: cs =>
    if c.toNat < 0x20 then none
    else do
      let (ns, rest) ← quotedUnits cs
      return (c.toNat :: ns, rest)

/-- Characters from code units. A pair of surrogates makes one. A surrogate by itself is no
character and cannot stand in a text: the replacement character takes its place, so that a text
with such an escape is read like the one with the replacement character written there. -/
def ofUnits : List Nat → List Char
  | [] => []
  | [n] => [if h : n.isValidChar then Char.ofNatAux n h else '\ufffd']
  | m :: n :: ns =>
    if 0xd800 ≤ m ∧ m < 0xdc00 ∧ 0xdc00 ≤ n ∧ n < 0xe000 then
      Char.ofNat (0x10000 + (m - 0xd800) * 0x400 + (n - 0xdc00)) :: ofUnits ns
    else (if h : m.isValidChar then Char.ofNatAux m h else '\ufffd') :: ofUnits (n :: ns)

/-- Whether a character is one of the digits `0` to `9`. -/
def isDigit (c : Char) : Bool :=
  decide ('0' ≤ c) && decide (c ≤ '9')

/-- An exponent with its sign at the front of a text, if there is one. -/
def exponent? : List Char → Option (Int × List Char)
  | e :: cs =>
    if e ≠ 'e' ∧ e ≠ 'E' then none
    else
      let (sign, ds) : Int × List Char := match cs with
        | '-' :: ds => (-1, ds)
        | '+' :: ds => (1, ds)
        | ds => (1, ds)
      if (ds.takeWhile isDigit).isEmpty then none
      else some (sign * Numeral.value (ds.takeWhile isDigit), ds.dropWhile isDigit)
  | [] => none

/-- The digits of a fraction after its point, if there are any. -/
def fraction : List Char → List Char × List Char
  | '.' :: cs =>
    if (cs.takeWhile isDigit).isEmpty then ([], '.' :: cs)
    else (cs.takeWhile isDigit, cs.dropWhile isDigit)
  | cs => ([], cs)

/-- The whole part of a number: nought alone, or digits that do not start with it. -/
def wholePart? : List Char → Option (List Char × List Char)
  | '0' :: cs => some (['0'], cs)
  | c :: cs =>
    if isDigit c then some ((c :: cs).takeWhile isDigit, (c :: cs).dropWhile isDigit) else none
  | [] => none

/-- A number without its sign, and the text after it. A fraction or an exponent makes it a
floating-point number. -/
def number? (negative : Bool) (cs : List Char) : Option (Value × List Char) := do
  let (whole, cs) ← wholePart? cs
  let (frac, cs) := fraction cs
  match exponent? cs with
  | some (e, rest) =>
    return (.double (.ofDecimal negative (Numeral.value (whole ++ frac)) (e - frac.length)), rest)
  | none =>
    if frac.isEmpty then
      match Numeral.readNat whole with
      | .ok n => return (.int (if negative then -(n : Int) else n), cs)
      | .error _ => none
    else
      return (.double (.ofDecimal negative (Numeral.value (whole ++ frac)) (-frac.length)), cs)

/-- What follows a text at the front of another. -/
def after? (front : String) (cs : List Char) : Option (List Char) :=
  if front.toList.isPrefixOf cs then some (cs.drop front.toList.length) else none

/-- The values that are written as words. -/
def words : List (String × Value) :=
  [("null", .null), ("true", .bool true), ("false", .bool false), ("NaN", .double .nan),
    ("Infinity", .double (.infinity false)), ("-Infinity", .double (.infinity true))]

/-- A value written as a word, and the text after it. -/
def word? (cs : List Char) : Option (Value × List Char) :=
  words.findSome? fun (w, v) => (after? w cs).map fun rest => (v, rest)

/-- The token at the front of a text, and the text after it. -/
def token? : List Char → Option (Token × List Char)
  | '[' :: cs => some (.openList, cs)
  | ']' :: cs => some (.closeList, cs)
  | '\x7b' :: cs => some (.openMap, cs)
  | '\x7d' :: cs => some (.closeMap, cs)
  | ',' :: cs => some (.comma, cs)
  | ':' :: cs => some (.colon, cs)
  | '"' :: cs => (quotedUnits cs).map fun (ns, rest) =>
    (.atom (.text (String.ofList (ofUnits ns))), rest)
  | cs =>
    match word? cs with
    | some (v, rest) => some (.atom v, rest)
    | none =>
      (match cs with
        | '-' :: ds => number? true ds
        | ds => number? false ds).map fun (v, rest) => (.atom v, rest)

/-- Whether a character may stand between tokens. -/
def isSpace (c : Char) : Bool :=
  c == ' ' || c == '\t' || c == '\n' || c == '\r'

/-- The tokens of a text, of which at most `fuel` are read. -/
def tokensWithin : Nat → List Char → Option (List Token)
  | 0, cs => if cs.all isSpace then some [] else none
  | fuel + 1, cs =>
    match cs.dropWhile isSpace with
    | [] => some []
    | c :: cs => do
      let (t, rest) ← token? (c :: cs)
      let ts ← tokensWithin fuel rest
      return t :: ts

/-- The tokens of a text. Each takes a character, so the length bounds their number. -/
def tokens (cs : List Char) : Option (List Token) :=
  tokensWithin cs.length cs

mutual

/-- The value at the front of the tokens, and the tokens after it. -/
def valueWithin : Nat → List Token → Option (Value × List Token)
  | _ + 1, .atom v :: ts => some (v, ts)
  | _ + 1, .openList :: .closeList :: ts => some (.list [], ts)
  | fuel + 1, .openList :: ts => do
    let (xs, rest) ← itemsWithin fuel ts
    return (.list xs, rest)
  | _ + 1, .openMap :: .closeMap :: ts => some (.map [], ts)
  | fuel + 1, .openMap :: ts => do
    let (es, rest) ← entriesWithin fuel ts
    return (.map (Entries.ofPairs es), rest)
  | _, _ => none

/-- Items up to the end of their list. -/
def itemsWithin : Nat → List Token → Option (List Value × List Token)
  | 0, _ => none
  | fuel + 1, ts => do
    let (x, ts) ← valueWithin fuel ts
    match ts with
    | .closeList :: rest => return ([x], rest)
    | .comma :: ts =>
      let (xs, rest) ← itemsWithin fuel ts
      return (x :: xs, rest)
    | _ => none

/-- Entries up to the end of their mapping. -/
def entriesWithin : Nat → List Token → Option (List (String × Value) × List Token)
  | fuel + 1, .atom (.text k) :: .colon :: ts => do
    let (x, ts) ← valueWithin fuel ts
    match ts with
    | .closeMap :: rest => return ([(k, x)], rest)
    | .comma :: ts =>
      let (es, rest) ← entriesWithin fuel ts
      return ((k, x) :: es, rest)
    | _ => none
  | _, _ => none

end

/-- The value that a whole text stands for. Two steps for each token are enough, so lists and
mappings are read however deeply they are nested; a reader with a limited stack gives up earlier. -/
def decode (s : String) : Option Value := do
  let ts ← tokens s.toList
  match valueWithin (2 * ts.length) ts with
  | some (v, []) => some v
  | _ => none

/-- The items of a text that is a JSON list. -/
def decodeList (s : String) : Option (List Value) :=
  match decode s with
  | some (.list xs) => some xs
  | _ => none

end FieldRules.Json
