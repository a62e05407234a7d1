import FieldRules.Regex.Reading

/-!
Escaped characters and sets of characters in a regular expression.
-/

namespace FieldRules.Regex

open Reading

/-- The value of a digit in a base up to 16. -/
def digitIn (base : Nat) (c : Char) : Option Nat :=
  let n :=
    if '0' ≤ c ∧ c ≤ '9' then c.toNat - '0'.toNat
    else if 'a' ≤ c ∧ c ≤ 'f' then c.toNat - 'a'.toNat + 10
    else if 'A' ≤ c ∧ c ≤ 'F' then c.toNat - 'A'.toNat + 10
    else base
  if n < base then some n else none

/-- The number with these digits in a base. -/
def numberIn (base : Nat) (cs : List Char) : Nat :=
  cs.foldl (fun n c => base * n + (digitIn base c).getD 0) 0

/-- Whether a character is a digit in a base. -/
def isDigitIn (base : Nat) (c : Char) : Bool :=
  (digitIn base c).isSome

/-- Whether a character is one of the letters `a` to `z` or `A` to `Z`. -/
def isLetter (c : Char) : Bool :=
  decide ('a' ≤ c ∧ c ≤ 'z' ∨ 'A' ≤ c ∧ c ≤ 'Z')

/-- A code point from a fixed number of hexadecimal digits. -/
def hexCode (digits : Nat) : Reading Nat := do
  let cs ← takeWhile (isDigitIn 16) digits
  if cs.length ≠ digits then malformed
  let n := numberIn 16 cs
  if 0x10ffff < n then malformed
  return n

/-- A code point by the name of its character. -/
def namedCode : Reading Nat := do
  if !(← accept '\x7b') then malformed
  match (← get).codeOfName? (← name '\x7d') with
  | some n => return n
  | none => malformed

/-- A code point of at most three octal digits, of which the first has been read. -/
def octalCode (first : Char) : Reading Nat := do
  let n := numberIn 8 (first :: (← takeWhile (isDigitIn 8) 2))
  if 0o377 < n then malformed
  return n

/-- Control characters by their letters. -/
def controlCode? : Char → Option Nat
  | 'a' => some 7
  | 'f' => some 12
  | 'n' => some 10
  | 'r' => some 13
  | 't' => some 9
  | 'v' => some 11
  | '\\' => some 0x5c
  | _ => none

/-- Kinds of characters by their letters. -/
def category? : Char → Option SetItem
  | 'd' => some (.category .digit false)
  | 'D' => some (.category .digit true)
  | 's' => some (.category .space false)
  | 'S' => some (.category .space true)
  | 'w' => some (.category .word false)
  | 'W' => some (.category .word true)
  | _ => none

/-- A code point that an escaped character stands for inside and outside sets alike. -/
def commonEscape (c : Char) : Reading Nat := do
  match controlCode? c with
  | some n => return n
  | none =>
    if c = 'x' then hexCode 2
    else if c = 'u' then hexCode 4
    else if c = 'U' then hexCode 8
    else if c = 'N' then namedCode
    else if isLetter c ∨ '0' ≤ c ∧ c ≤ '9' then malformed
    else return c.toNat

/-- A part of a set from an escaped character. -/
def setEscape (c : Char) : Reading SetItem := do
  match category? c with
  | some item => return item
  | none =>
    if c = 'b' then return .code 8
    else if isDigitIn 8 c then return .code (← octalCode c)
    else return .code (← commonEscape c)

/-- The set of a character or a kind under the flags. -/
def setPiece (flags : Flags) (negated : Bool) (items : List SetItem) : Piece :=
  ⟨.one ⟨negated, items, flags.folding, flags.ascii⟩, ⟨1, 1⟩, .simple⟩

/-- A condition on a place. -/
def anchorPiece (a : Anchor) : Piece :=
  ⟨.anchor a, ⟨0, 0⟩, .anchor⟩

/-- The text of an earlier group once more. -/
def samePiece (index : Nat) : Reading Piece := do
  let width ← groupWidth index
  checkBehind index
  return ⟨.same index (← get).flags.folding, width, .simple⟩

/-- A code point of three octal digits, or an earlier group by one or two digits. -/
def numberEscape (first : Char) : Reading Piece := do
  let flags := (← get).flags
  let second ← takeWhile (isDigitIn 10) 1
  let octal ←
    if second.all (isDigitIn 8) && !second.isEmpty && isDigitIn 8 first then
      takeWhile (isDigitIn 8) 1
    else pure []
  if octal.isEmpty then
    let index := numberIn 10 (first :: second)
    if index < (← groupCount) then samePiece index else malformed
  else
    let n := numberIn 8 (first :: second ++ octal)
    if 0o377 < n then malformed
    return setPiece flags false [.code n]

/-- A piece from an escaped character. -/
def escapePiece (c : Char) : Reading Piece := do
  let flags := (← get).flags
  match category? c with
  | some item => return setPiece flags false [item]
  | none =>
    if c = 'A' then return anchorPiece .textStart
    else if c = 'Z' then return anchorPiece .textEnd
    else if c = 'b' then return anchorPiece (.wordEdge flags.ascii)
    else if c = 'B' then return anchorPiece (.noWordEdge flags.ascii)
    else if c = '0' then
      return setPiece flags false [.code (numberIn 8 (← takeWhile (isDigitIn 8) 2))]
    else if isDigitIn 10 c then numberEscape c
    else return setPiece flags false [.code (← commonEscape c)]

/-- A part of a set from a sign. -/
def setPart : Option Sign → Reading SetItem
  | some (.escaped c) => setEscape c
  | some (.plain c) => return .code c.toNat
  | _ => malformed

/-- The parts of a set up to its end. A closing bracket that comes first is one of them. -/
def setItems : Nat → List SetItem → Reading (List SetItem)
  | 0, _ => malformed
  | fuel + 1, items => do
    let sign ← next
    if sign = some (.plain ']') ∧ items ≠ [] then return items
    let first ← setPart sign
    if ← accept '-' then
      let sign ← next
      if sign = some (.plain ']') then return .code '-'.toNat :: first :: items
      match first, ← setPart sign with
      | .code lo, .code hi =>
        if hi < lo then malformed
        setItems fuel (.range lo hi :: items)
      | _, _ => malformed
    else setItems fuel (first :: items)

end FieldRules.Regex
