import FieldRules.Double.Layout
import FieldRules.Numeral
import FieldRules.Text.Quoted
import FieldRules.Value

/-!
Values as compact JSON in printable ASCII. Characters outside that range are written as their
16-bit units.
-/

namespace FieldRules.Json

/-- The 16-bit units of a character: one, or a pair of surrogates. -/
def unitsOf (c : Char) : List Nat :=
  if c.toNat < 0x10000 then [c.toNat]
  else [0xd800 + (c.toNat - 0x10000) / 0x400, 0xdc00 + (c.toNat - 0x10000) % 0x400]

/-- A 16-bit unit in four hexadecimal digits. -/
def escapeUnit (n : Nat) : List Char :=
  '\\' :: 'u' :: Text.Quoted.hex 4 n

/-- One character between quotes. -/
def escape (c : Char) : List Char :=
  if c = '"' then ['\\', '"']
  else if c = '\\' then ['\\', '\\']
  else if c = '\n' then ['\\', 'n']
  else if c = '\r' then ['\\', 'r']
  else if c = '\t' then ['\\', 't']
  else if c = '\x0c' then ['\\', 'f']
  else if c = '\x08' then ['\\', 'b']
  else if ' ' ≤ c ∧ c ≤ '~' then [c]
  else (unitsOf c).flatMap escapeUnit

/-- A text between quotes. -/
def encodeText (s : String) : List Char :=
  '"' :: s.toList.flatMap escape ++ ['"']

/-- Numbers have the fewest digits that read back; the numbers that JSON has no digits for are
written by name. -/
def numbers : Double.Layout := ⟨-3, 16, 2, "NaN", "Infinity"⟩

mutual

/-- A value in JSON. -/
def encodeChars : Value → Except Fault (List Char)
  | .null => .ok "null".toList
  | .bool b => .ok (if b then "true".toList else "false".toList)
  | .int i => Numeral.write i
  | .double d => .ok (numbers.chars d)
  | .text s => .ok (encodeText s)
  | .list xs => do
    let body ← encodeItems xs
    return '[' :: body ++ [']']
  | .map es => do
    let body ← encodeEntries es
    return '\x7b' :: body ++ ['\x7d']

/-- Items with commas between them. -/
def encodeItems : List Value → Except Fault (List Char)
  | [] => .ok []
  | [x] => encodeChars x
  | x :: xs => do
    let first ← encodeChars x
    let rest ← encodeItems xs
    return first ++ ',' :: rest

/-- Entries with commas between them. -/
def encodeEntries : List (String × Value) → Except Fault (List Char)
  | [] => .ok []
  | [(k, x)] => do
    let value ← encodeChars x
    return encodeText k ++ ':' :: value
  | (k, x) :: es => do
    let value ← encodeChars x
    let rest ← encodeEntries es
    return encodeText k ++ ':' :: value ++ ',' :: rest

end

/-- A value in JSON, unless a numeral in it is too long. -/
def encode (v : Value) : Except Fault String :=
  (encodeChars v).map String.ofList

end FieldRules.Json
