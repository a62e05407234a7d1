import FieldRules.Json.Decode
import FieldRules.Range.Runtime
import FieldRules.Regex.Matcher
import FieldRules.Regex.Parser
import FieldRules.Url
import FieldRules.Value.Display

/-!
Whether values lie in ranges. A text counts like the value that it shows.
-/

namespace FieldRules

/-- Whether a row of characters is not empty and all are digits `0` to `9`. -/
def areDigits (cs : List Char) : Bool :=
  !cs.isEmpty && cs.all Json.isDigit

/-- The digits of a decimal before and after its point. One side may be empty, and without digits
before it there must be a point. -/
def decimalParts? (cs : List Char) : Option (List Char × List Char) :=
  let whole := cs.takeWhile Json.isDigit
  match cs.dropWhile Json.isDigit with
  | [] => if whole.isEmpty then none else some (whole, [])
  | '.' :: frac =>
    if frac.all Json.isDigit && !(whole.isEmpty && frac.isEmpty) then some (whole, frac) else none
  | _ => none

/-- The number that a text in decimal notation stands for, perhaps with an exponent. -/
def decimal? (negative : Bool) (cs : List Char) : Option Double := do
  let mantissa := cs.takeWhile fun c => c != 'e' && c != 'E'
  let (whole, frac) ← decimalParts? mantissa
  let exponent ← match cs.drop mantissa.length with
    | [] => some 0
    | tail =>
      match Json.exponent? tail with
      | some (e, []) => some e
      | _ => none
  return .ofDecimal negative (Numeral.value (whole ++ frac)) (exponent - frac.length)

/-- The integer that an unsigned numeral stands for: plain digits, or a decimal whose value is
integral. -/
def unsignedInteger? (negative : Bool) (cs : List Char) : Except Fault (Option Int) :=
  if areDigits cs then
    (Numeral.readNat cs).map fun n => some (if negative then -(n : Int) else n)
  else .ok ((decimal? negative cs).bind Double.toInt?)

namespace Value

/-- The integer that a value is, or that a text shows. Truth values are none. -/
def integer? : Value → Except Fault (Option Int)
  | .int i => .ok (some i)
  | .double d => .ok d.toInt?
  | .text s =>
    match Text.trimChars s.toList with
    | '+' :: cs => unsignedInteger? false cs
    | '-' :: cs => unsignedInteger? true cs
    | cs => unsignedInteger? false cs
  | _ => .ok none

/-- The items of a list, or of a text that is a JSON list. -/
def items? : Value → Option (List Value)
  | .list xs => some xs
  | .text s => Json.decodeList s
  | _ => none

/-- Whether a value can be an item of a type. -/
def isItem (type : ItemType) : Value → Bool
  | .text _ => type == .string
  | .int _ => type == .integer
  | .double d => type == .integer && d.toInt?.isSome
  | _ => false

end Value

namespace Range

/-- Whether a regular expression matches somewhere in a text. One that is malformed matches
nothing. -/
def matchesRegex (rt : Runtime) (regex text : String) : Except Fault Bool :=
  match Regex.parse {} regex rt.codeOfName? with
  | .ok p => .ok (p.occursIn text)
  | .error .malformed => .ok false
  | .error (.fault f) => .error f

/-- Whether a value of one type lies within bounds, given the text that shows it. -/
def scalarHolds (type : ScalarType) (bounds : Bounds) (v : Value) (text : String) :
    Except Fault Bool :=
  match type with
  | .string => .ok (bounds.hold text.length)
  | .boolean => .ok (match v with
    | .bool _ => true
    | _ => text == "true" || text == "false")
  | .url => .ok (Url.isAbsolute text)
  | .integer => do
    match ← v.integer? with
    | some n => return bounds.hold n
    | none => return false

/-- Whether a value lies in a range. -/
def holds (range : Range) (v : Value) (rt : Runtime := .usual) : Except Fault Bool := do
  if rt.overflows range v then throw .nestedTooDeep
  let text ← v.display
  match range with
  | .scalar type bounds => scalarHolds type bounds v text
  | .array type size =>
    match v.items? with
    | some xs => return size.hold xs.length && xs.all (Value.isItem type)
    | none => return false
  | .choice options => return options.contains text
  | .choices options size =>
    match v.items? with
    | some xs =>
      if size.hold xs.length then xs.allM fun x => do return options.contains (← x.display)
      else return false
    | none => return false
  | .pattern regex => matchesRegex rt regex text

/-- Whether a value lies in the range of a text. -/
def accepts (s : String) (v : Value) (rt : Runtime := .usual) : Except Fault Bool := do
  let range ← parse s
  range.holds v rt

end Range

end FieldRules
