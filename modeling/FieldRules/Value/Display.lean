import FieldRules.Json.Encode
import FieldRules.Text.Blank

/-!
Values as text: as they are shown to a reader, and as they are quoted in a message.
-/

namespace FieldRules.Value

/-- Numbers have the fewest digits that read back. -/
def numbers : Double.Layout := ⟨-3, 16, 2, "nan", "inf"⟩

mutual

/-- A value as it is quoted in a message. -/
def inspectChars : Value → Except Fault (List Char)
  | .null => .ok "None".toList
  | .bool b => .ok (if b then "True".toList else "False".toList)
  | .int i => Numeral.write i
  | .double d => .ok (numbers.chars d)
  | .text s => .ok (Text.Quoted.encode s.toList)
  | .list xs => do
    let body ← inspectItems xs
    return '[' :: body ++ [']']
  | .map es => do
    let body ← inspectEntries es
    return '\x7b' :: body ++ ['\x7d']

/-- Items with commas between them. -/
def inspectItems : List Value → Except Fault (List Char)
  | [] => .ok []
  | [x] => inspectChars x
  | x :: xs => do
    let first ← inspectChars x
    let rest ← inspectItems xs
    return first ++ ',' :: ' ' :: rest

/-- Entries with commas between them. -/
def inspectEntries : List (String × Value) → Except Fault (List Char)
  | [] => .ok []
  | [(k, x)] => do
    let value ← inspectChars x
    return Text.Quoted.encode k.toList ++ ':' :: ' ' :: value
  | (k, x) :: es => do
    let value ← inspectChars x
    let rest ← inspectEntries es
    return Text.Quoted.encode k.toList ++ ':' :: ' ' :: value ++ ',' :: ' ' :: rest

end

/-- A value as it is quoted in a message. -/
def inspect (v : Value) : Except Fault String :=
  (inspectChars v).map String.ofList

/-- A value as a message ends with it: a text as it is, other values as they are quoted. -/
def mention : Value → Except Fault String
  | .text s => .ok s
  | v => v.inspect

/-- A value as it is shown and compared as text. Lists are compact JSON, and an integral
floating-point number is shown as the integer that it is. -/
def display : Value → Except Fault String
  | .null => .ok ""
  | .text s => .ok s
  | .bool b => .ok (if b then "true" else "false")
  | .double d =>
    match d.toInt? with
    | some i => (Numeral.write i).map String.ofList
    | none => .ok (String.ofList (numbers.chars d))
  | .list xs => Json.encode (.list xs)
  | v => v.inspect

/-- Whether a value shows as nothing: blank text, an empty list or none at all. -/
def isEmpty : Value → Bool
  | .null => true
  | .text s => (Text.trimChars s.toList).isEmpty
  | .list xs => xs.isEmpty
  | _ => false

end FieldRules.Value
