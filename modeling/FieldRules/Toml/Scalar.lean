import FieldRules.Double
import FieldRules.Fault
import FieldRules.Numeral
import FieldRules.Text.Split
import FieldRules.Value

/-!
The texts, numbers and moments in time of a TOML document. Each reader takes what stands at the
front of a text and leaves the rest.
-/

namespace FieldRules.Toml

/-- Why a document cannot be read. -/
inductive Refusal
  | malformed
  | fault (fault : Fault)
  deriving DecidableEq

/-- A reader of what stands at the front of a text. -/
abbrev Reader (α : Type) := List Char → Except Refusal (α × List Char)

/-- Whether a character is a space within a line. -/
def isSpace (c : Char) : Bool :=
  c == ' ' || c == '\t'

/-- Whether a character is a space or ends a line. -/
def isGap (c : Char) : Bool :=
  isSpace c || c == '\n'

/-- Whether a character must not stand in a line as itself. -/
def isControl (c : Char) : Bool :=
  (decide (c.toNat < 0x20) && c != '\t') || c.toNat == 0x7f

/-- Whether a character may stand in a text as itself. -/
def isPlain (multiline : Bool) (c : Char) : Bool :=
  !isControl c || (multiline && c == '\n')

/-- Whether a text starts with some characters. -/
def startsWith (front : String) (cs : List Char) : Bool :=
  front.toList.isPrefixOf cs

/-- The value of a hexadecimal digit. -/
def hexValue? (c : Char) : Option Nat :=
  if '0' ≤ c ∧ c ≤ '9' then some (c.toNat - '0'.toNat)
  else if 'a' ≤ c ∧ c ≤ 'f' then some (c.toNat - 'a'.toNat + 10)
  else if 'A' ≤ c ∧ c ≤ 'F' then some (c.toNat - 'A'.toNat + 10)
  else none

/-- The character that hexadecimal digits stand for. -/
def scalar? (digits : List Char) : Option Char := do
  let values ← digits.mapM hexValue?
  let code := values.foldl (fun n d => 16 * n + d) 0
  if h : code.isValidChar then some (Char.ofNatAux code h) else none

/-- The character that a letter after a backslash stands for. -/
def unescape? : Char → Option Char
  | 'b' => some '\x08'
  | 't' => some '\t'
  | 'n' => some '\n'
  | 'f' => some '\x0c'
  | 'r' => some '\r'
  | '"' => some '"'
  | '\\' => some '\\'
  | _ => none

/-- What may be left out at a place in a text of several lines. -/
inductive Gap
  | nothing
  /-- Spaces up to the end of the line, which must come. -/
  | line
  /-- Spaces and line ends. -/
  | lines
  deriving DecidableEq

/-- Puts a character in front of a text that was read. -/
def cons (c : Char) (read : Option (List Char × List Char)) : Option (List Char × List Char) :=
  read.map fun (cs, rest) => (c :: cs, rest)

/-- A text up to its closing quote, or to three of them when it has several lines. A backslash at
the end of a line leaves out the blanks before the next character. -/
def basicText? (multiline : Bool) : Gap → List Char → Option (List Char × List Char)
  | _, [] => none
  | .line, c :: cs =>
    if isSpace c then basicText? multiline .line cs
    else if c = '\n' then basicText? multiline .lines cs
    else none
  | _, '"' :: cs =>
    if !multiline then some ([], cs)
    else if startsWith "\"\"" cs then some ([], cs.drop 2)
    else cons '"' (basicText? multiline .nothing cs)
  | _, '\\' :: 'u' :: a :: b :: c :: d :: cs =>
    (scalar? [a, b, c, d]).bind fun x => cons x (basicText? multiline .nothing cs)
  | _, '\\' :: 'U' :: a :: b :: c :: d :: e :: f :: g :: h :: cs =>
    (scalar? [a, b, c, d, e, f, g, h]).bind fun x => cons x (basicText? multiline .nothing cs)
  | _, '\\' :: c :: cs =>
    if multiline && isSpace c then basicText? multiline .line cs
    else if multiline && c == '\n' then basicText? multiline .lines cs
    else (unescape? c).bind fun x => cons x (basicText? multiline .nothing cs)
  | gap, c :: cs =>
    if gap == .lines && isGap c then basicText? multiline .lines cs
    else if c != '\\' && isPlain multiline c then cons c (basicText? multiline .nothing cs)
    else none

/-- The characters up to a mark, and those after it. -/
def until? (mark : List Char) (isAllowed : Char → Bool) :
    List Char → Option (List Char × List Char)
  | [] => none
  | c :: cs =>
    if mark.isPrefixOf (c :: cs) then some ([], (c :: cs).drop mark.length)
    else if isAllowed c then cons c (until? mark isAllowed cs)
    else none

/-- A text with up to two more quotes from the front of what follows it. -/
def moreQuotes (quote : Char) (cs rest : List Char) : List Char × List Char :=
  let extra := (rest.take 2).takeWhile (· == quote)
  (cs ++ extra, rest.drop extra.length)

/-- A line end at the front of a text of several lines does not belong to it. -/
def skipLineEnd : List Char → List Char
  | '\n' :: cs => cs
  | cs => cs

/-- A text between single quotes. -/
def singleQuote : Char :=
  '\x27'

/-- A text of one line, from its opening quote on. -/
def lineText? : List Char → Option (List Char × List Char)
  | '"' :: cs => basicText? false .nothing cs
  | c :: cs => if c = singleQuote then until? [singleQuote] (isPlain false) cs else none
  | [] => none

/-- A text of one or of several lines, from its opening quote on. -/
def text? (cs : List Char) : Option (List Char × List Char) :=
  if startsWith "\"\"\"" cs then
    (basicText? true .nothing (skipLineEnd (cs.drop 3))).map fun (s, rest) => moreQuotes '"' s rest
  else if (List.replicate 3 singleQuote).isPrefixOf cs then
    (until? (List.replicate 3 singleQuote) (isPlain true) (skipLineEnd (cs.drop 3))).map
      fun (s, rest) => moreQuotes singleQuote s rest
  else lineText? cs

/-- Whether a character is one of the digits `0` to `9`. -/
def isDigit (c : Char) : Bool :=
  decide ('0' ≤ c) && decide (c ≤ '9')

/-- Digits that follow a digit, with single underscores between them. -/
def moreDigits (isDigit : Char → Bool) : List Char → List Char × List Char
  | '_' :: c :: cs =>
    if isDigit c then (c :: (moreDigits isDigit cs).1, (moreDigits isDigit cs).2)
    else ([], '_' :: c :: cs)
  | c :: cs =>
    if isDigit c then (c :: (moreDigits isDigit cs).1, (moreDigits isDigit cs).2)
    else ([], c :: cs)
  | [] => ([], [])

/-- A digit and those that follow it. -/
def digits? (isDigit : Char → Bool) : List Char → Option (List Char × List Char)
  | c :: cs =>
    if isDigit c then some (c :: (moreDigits isDigit cs).1, (moreDigits isDigit cs).2) else none
  | [] => none

/-- The letters for numbers that are not decimal, with their bases. -/
def bases : List (Char × Nat) :=
  [('x', 16), ('b', 2), ('o', 8)]

/-- A number in another base than ten. -/
def based? : List Char → Option (Int × List Char)
  | '0' :: letter :: cs => do
    let (_, base) ← bases.find? fun b => b.1 == letter
    let (ds, rest) ← digits? (fun c => (hexValue? c).any (· < base)) cs
    let n := ds.foldl (fun n c => base * n + (hexValue? c).getD 0) 0
    return (n, rest)
  | _ => none

/-- A sign at the front of a text, true for a minus. -/
def sign : List Char → Bool × List Char
  | '-' :: cs => (true, cs)
  | '+' :: cs => (false, cs)
  | cs => (false, cs)

/-- The whole part of a decimal number: nought alone, or digits that do not start with it. -/
def whole? : List Char → Option (List Char × List Char)
  | '0' :: cs => some (['0'], cs)
  | cs => digits? isDigit cs

/-- The digits of a fraction after its point, if there are any. -/
def fraction? : List Char → Option (List Char × List Char)
  | '.' :: cs => digits? isDigit cs
  | _ => none

/-- An exponent after its letter, if there is one. -/
def exponent? : List Char → Option (Int × List Char)
  | c :: cs =>
    if c = 'e' ∨ c = 'E' then
      (digits? isDigit (sign cs).2).map fun (ds, rest) =>
        (if (sign cs).1 then -(Numeral.value ds : Int) else Numeral.value ds, rest)
    else none
  | [] => none

/-- The integer of some digits, unless they are too many. -/
def integer (negative : Bool) (ds : List Char) : Except Refusal Value :=
  match Numeral.readNat ds with
  | .ok n => .ok (.int (if negative then -(n : Int) else n))
  | .error fault => .error (.fault fault)

/-- A decimal number. A fraction or an exponent makes it a floating-point number. -/
def decimal? (cs : List Char) : Option (Except Refusal Value × List Char) := do
  let negative := (sign cs).1
  let (whole, cs) ← whole? (sign cs).2
  let frac := fraction? cs
  let cs := (frac.map (·.2)).getD cs
  let digits := (frac.map (·.1)).getD []
  let double (e : Int) : Except Refusal Value :=
    .ok (.double (.ofDecimal negative (Numeral.value (whole ++ digits)) (e - digits.length)))
  match exponent? cs with
  | some (e, rest) => return (double e, rest)
  | none => if frac.isSome then return (double 0, cs) else return (integer negative whole, cs)

/-- The numbers that have no digits. -/
def wordNumber? (cs : List Char) : Option (Value × List Char) :=
  let rest := (sign cs).2.drop 3
  if startsWith "inf" (sign cs).2 then some (.double (.infinity (sign cs).1), rest)
  else if startsWith "nan" (sign cs).2 then some (.double .nan, rest)
  else none

/-- A number of two digits within bounds. -/
def twoDigits? (lo hi : Nat) : List Char → Option (Nat × List Char)
  | a :: b :: cs =>
    let n := Numeral.value [a, b]
    if isDigit a ∧ isDigit b ∧ lo ≤ n ∧ n ≤ hi then some (n, cs) else none
  | _ => none

/-- What follows a character. -/
def after? (c : Char) : List Char → Option (List Char)
  | d :: cs => if d = c then some cs else none
  | [] => none

/-- What follows a fraction of a second, or no such fraction. -/
def skipFraction (cs : List Char) : List Char :=
  match cs with
  | '.' :: ds => if (ds.head?.any isDigit) then ds.dropWhile isDigit else cs
  | _ => cs

/-- What follows hours, minutes and seconds. -/
def afterTime? (cs : List Char) : Option (List Char) := do
  let (_, cs) ← twoDigits? 0 23 cs
  let (_, cs) ← twoDigits? 0 59 (← after? ':' cs)
  let (_, cs) ← twoDigits? 0 59 (← after? ':' cs)
  return skipFraction cs

/-- What follows the offset of a time, if it has one. -/
def afterOffset? : List Char → Option (List Char)
  | c :: cs =>
    if c = 'Z' ∨ c = 'z' then some cs
    else if c = '+' ∨ c = '-' then do
      let (_, cs) ← twoDigits? 0 23 cs
      let (_, cs) ← twoDigits? 0 59 (← after? ':' cs)
      return cs
    else none
  | [] => none

/-- What follows the time of a day, if there is one. -/
def skipTimeOfDay (cs : List Char) : List Char :=
  match cs with
  | c :: ds =>
    if c = 'T' ∨ c = 't' ∨ c = ' ' then
      match afterTime? ds with
      | some rest => (afterOffset? rest).getD rest
      | none => cs
    else cs
  | [] => cs

/-- The number of days of a month. -/
def daysOf (year month : Nat) : Nat :=
  if month = 2 then
    if year % 4 = 0 ∧ (year % 100 ≠ 0 ∨ year % 400 = 0) then 29 else 28
  else if month = 4 ∨ month = 6 ∨ month = 9 ∨ month = 11 then 30
  else 31

/-- A date, perhaps with a time: whether there is such a day, and what follows. -/
def date? : List Char → Option (Bool × List Char)
  | a :: b :: c :: d :: cs => do
    if !([a, b, c, d].all isDigit) then none
    let year := Numeral.value [a, b, c, d]
    let (month, cs) ← twoDigits? 1 12 (← after? '-' cs)
    let (day, cs) ← twoDigits? 1 31 (← after? '-' cs)
    return (decide (1 ≤ year ∧ day ≤ daysOf year month), skipTimeOfDay cs)
  | _ => none

/-- A moment in time. No setting is one, so that nothing of it is kept. -/
def moment? (cs : List Char) : Option (Except Refusal Value × List Char) :=
  match date? cs with
  | some (true, rest) => some (.ok .null, rest)
  | some (false, rest) => some (.error .malformed, rest)
  | none => (afterTime? cs).map fun rest => (.ok .null, rest)

/-- A value that has no parts. -/
def scalar : Reader Value := fun cs =>
  if startsWith "\"" cs ∨ [singleQuote].isPrefixOf cs then
    match text? cs with
    | some (s, rest) => .ok (.text (String.ofList s), rest)
    | none => .error .malformed
  else if startsWith "true" cs then .ok (.bool true, cs.drop 4)
  else if startsWith "false" cs then .ok (.bool false, cs.drop 5)
  else
    match moment? cs with
    | some (v, rest) => v.map fun v => (v, rest)
    | none =>
      match based? cs with
      | some (n, rest) => .ok (.int n, rest)
      | none =>
        match decimal? cs with
        | some (v, rest) => v.map fun v => (v, rest)
        | none =>
          match wordNumber? cs with
          | some (v, rest) => .ok (v, rest)
          | none => .error .malformed

end FieldRules.Toml
