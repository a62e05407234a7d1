import FieldRules.Text.Printable

/-!
Texts between quotes. The quote is the single one unless only that one occurs in the text; what
does not show as itself is written by its code point.
-/

namespace FieldRules.Text.Quoted

/-- A number in hexadecimal digits, filled up with noughts to a width. -/
def hex (width n : Nat) : List Char :=
  let digits := Nat.toDigits 16 n
  List.replicate (width - digits.length) '0' ++ digits

/-- The quote to write a text with. -/
def quoteFor (cs : List Char) : Char :=
  if cs.contains '\x27' && !cs.contains '"' then '"' else '\x27'

/-- One character between quotes of one kind. -/
def escape (quote c : Char) : List Char :=
  if c = quote ∨ c = '\\' then ['\\', c]
  else if c = '\n' then ['\\', 'n']
  else if c = '\r' then ['\\', 'r']
  else if c = '\t' then ['\\', 't']
  else if isPrintable c then [c]
  else if c.toNat < 0x100 then '\\' :: 'x' :: hex 2 c.toNat
  else if c.toNat < 0x10000 then '\\' :: 'u' :: hex 4 c.toNat
  else '\\' :: 'U' :: hex 8 c.toNat

/-- A text between quotes. -/
def encode (cs : List Char) : List Char :=
  let quote := quoteFor cs
  quote :: cs.flatMap (escape quote) ++ [quote]

end FieldRules.Text.Quoted

namespace FieldRules.Text

/-- A text between quotes. -/
def quoted (s : String) : String :=
  String.ofList (Quoted.encode s.toList)

end FieldRules.Text
