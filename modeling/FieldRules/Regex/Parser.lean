import FieldRules.Numeral
import FieldRules.Regex.Escape
import FieldRules.Text.Identifier

/-!
Regular expressions from their text, read by recursive descent. Functions that call each other take
a number of steps that is enough for the whole text.
-/

namespace FieldRules.Regex

open Reading

/-- A repetition count, unless it cannot be counted. -/
def repetitions (cs : List Char) : Reading Nat := do
  match Numeral.readNat cs with
  | .error f => throw (.fault f)
  | .ok n => if 4294967295 ≤ n then throw (.fault .repetitionTooLarge) else return n

/-- The bounds of a repetition in braces, after the opening one. Without them the brace stands for
itself and nothing is taken. -/
def braceBounds : Reading (Option (Nat × Option Nat)) := do
  let here ← get
  let all := here.rest.length
  if (← peek) = some (.plain '\x7d') then return none
  let lo ← takeWhile (isDigitIn 10) all
  let hi ← if ← accept ',' then takeWhile (isDigitIn 10) all else pure lo
  if ← accept '\x7d' then
    let least ← if lo.isEmpty then pure 0 else repetitions lo
    if hi.isEmpty then return some (least, none)
    let most ← repetitions hi
    if most < least then malformed
    return some (least, some most)
  else
    set here
    return none

/-- The last piece with a repetition. -/
def repeatLast (least : Nat) (most : Option Nat) : List Piece → Reading (List Piece)
  | [] => malformed
  | p :: ps => do
    if p.kind ≠ .simple then malformed
    let eagerness : Eagerness ←
      if ← accept '?' then pure .lazy
      else if ← accept '+' then pure .possessive
      else pure .greedy
    modify fun r => { r with unusable := r.unusable || r.flags.plainOnly }
    return ⟨.loop eagerness least most p.pattern, p.width.times least most, .repeated⟩ :: ps

/-- The flag letters from one on, with the sign that ends them. -/
def flagLetters : Nat → Flags → Char → Reading (Flags × Option Sign)
  | 0, _, _ => malformed
  | fuel + 1, seen, c => do
    match Flags.ofLetter? c with
    | none => malformed
    | some f =>
      let seen := seen.union f
      if seen.ascii && seen.unicode then malformed
      match ← next with
      | some (.plain d) =>
        if d = ')' ∨ d = '-' ∨ d = ':' then return (seen, some (.plain d))
        else flagLetters fuel seen d
      | _ => malformed

/-- The flags of a group, from the first sign after the question mark on. `none` when they are for
the whole expression. -/
def groupFlags (fuel : Nat) (c : Char) : Reading (Option (Flags × Flags)) := do
  let (on, stop) ← if c = '-' then pure ({}, some (Sign.plain '-')) else flagLetters fuel {} c
  if stop = some (.plain ')') then
    modify fun r => { r with flags := r.flags.union on }
    return none
  if on.plainOnly then malformed
  let off ←
    if stop = some (.plain '-') then
      match ← next with
      | some (.plain d) =>
        let (off, stop) ← flagLetters fuel {} d
        if stop ≠ some (.plain ':') ∨ off.choosesLetters then malformed
        pure off
      | _ => malformed
    else pure {}
  if off.plainOnly ∨ on.zip (· && ·) off ≠ {} then malformed
  return some (on, off)

/-- Opens a group, with a name for it if there is one. -/
def openGroup (groupName : Option (List Char)) : Reading Nat := do
  let index ← groupCount
  match groupName with
  | none => pure ()
  | some cs =>
    let key := String.ofList cs
    if ((← get).names.lookup key).isSome then malformed
    modify fun r => { r with names := (key, index) :: r.names }
  modify fun r => { r with groups := r.groups ++ [none] }
  return index

/-- Closes a group. -/
def closeGroup (index : Nat) (width : Width) : Reading Unit :=
  modify fun r => { r with groups := r.groups.set (index - 1) (some width) }

/-- Reads the closing parenthesis. -/
def closing : Reading Unit := do
  if !(← accept ')') then malformed

/-- The number that no group of an expression can have. -/
def maxGroups : Nat :=
  1073741823

/-- The group that a condition asks for, by its number or its name. -/
def askedGroup (cs : List Char) : Reading Nat := do
  if cs.all (isDigitIn 10) then
    match Numeral.readNat cs with
    | .error f => throw (.fault f)
    | .ok index =>
      if index = 0 ∨ maxGroups ≤ index then malformed
      modify fun r => { r with asked := index :: r.asked }
      return index
  else
    if !Text.isIdentifier cs then malformed
    match (← get).names.lookup (String.ofList cs) with
    | some index => return index
    | none => malformed

/-- Skips a comment up to the end of its line. -/
def skipLine : Reading Unit := do
  let rest := (← get).rest
  let line := rest.takeWhile (· ≠ .plain '\n')
  modify fun r => { r with rest := rest.drop (line.length + 1) }
  if line.contains .dangling then malformed
  let _ ← peek

/-- Skips a comment in parentheses, after its mark. -/
def skipComment : Reading Unit := do
  let rest := (← get).rest
  let comment := rest.takeWhile (· ≠ .plain ')')
  if comment.length = rest.length then malformed
  modify fun r => { r with rest := rest.drop (comment.length + 1) }
  let _ ← peek

/-- Whether a character is skipped when blanks are. -/
def isSpacing (c : Char) : Bool :=
  c == ' ' || c == '\t' || c == '\n' || c == '\r' || c == '\x0b' || c == '\x0c'

/-- Marks a look behind whose width is not fixed, or is too large, as unusable. -/
def behindWidth (w : Width) : Reading Nat := do
  if w.low ≠ w.high ∨ 0xffffffff < w.low then
    modify fun r => { r with unusable := true }
  return w.low

mutual

/-- Alternatives. Only the first of the whole expression may start with flags for all of it. -/
def alternatives : Nat → Bool → Reading Piece
  | 0, _ => malformed
  | fuel + 1, first => return .ofBranches (← branches fuel first)

/-- The sequences that alternatives are made of. -/
def branches : Nat → Bool → Reading (List Piece)
  | 0, _ => malformed
  | fuel + 1, first => do
    let p ← sequence fuel first []
    if ← accept '|' then return p :: (← branches fuel false) else return [p]

/-- A sequence, after pieces of which the last is given first. -/
def sequence : Nat → Bool → List Piece → Reading Piece
  | 0, _, _ => malformed
  | fuel + 1, first, pieces => do
    match ← peek with
    | none => return .ofReversed pieces
    | some (.plain '|') => return .ofReversed pieces
    | some (.plain ')') => return .ofReversed pieces
    | some sign =>
      let _ ← next
      let flags := (← get).flags
      match sign with
      | .dangling => malformed
      | .escaped c =>
        let p ← escapePiece c
        sequence fuel first (p :: pieces)
      | .plain c =>
        if flags.spaced && isSpacing c then sequence fuel first pieces
        else if flags.spaced && c == '#' then
          skipLine
          sequence fuel first pieces
        else if c = '[' then
          let negated ← accept '^'
          let items ← setItems fuel []
          sequence fuel first (setPiece flags negated items :: pieces)
        else if c = '.' then
          sequence fuel first (⟨.any flags.dotAll, ⟨1, 1⟩, .simple⟩ :: pieces)
        else if c = '^' then
          sequence fuel first
            (anchorPiece (if flags.lines then .lineStart else .textStart) :: pieces)
        else if c = '$' then
          sequence fuel first
            (anchorPiece (if flags.lines then .lineEnd else .lastLineEnd) :: pieces)
        else if c = '*' then sequence fuel first (← repeatLast 0 none pieces)
        else if c = '+' then sequence fuel first (← repeatLast 1 none pieces)
        else if c = '?' then sequence fuel first (← repeatLast 0 (some 1) pieces)
        else if c = '\x7b' then
          match ← braceBounds with
          | some (least, most) => sequence fuel first (← repeatLast least most pieces)
          | none => sequence fuel first (setPiece flags false [.code c.toNat] :: pieces)
        else if c = '(' then
          if ← accept '?' then
            match ← extension fuel first pieces.isEmpty with
            | some p => sequence fuel first (p :: pieces)
            | none => sequence fuel first pieces
          else
            let p ← capture fuel none
            sequence fuel first (p :: pieces)
        else sequence fuel first (setPiece flags false [.code c.toNat] :: pieces)

/-- A group that keeps what it matched, after its opening. -/
def capture : Nat → Option (List Char) → Reading Piece
  | 0, _ => malformed
  | fuel + 1, groupName => do
    let index ← openGroup groupName
    let p ← alternatives fuel false
    closing
    closeGroup index p.width
    return ⟨.group index p.pattern, p.width, .simple⟩

/-- A group of a special kind, after the question mark. There is no piece for a comment, nor for
flags of the whole expression, which must come first. -/
def extension : Nat → Bool → Bool → Reading (Option Piece)
  | 0, _, _ => malformed
  | fuel + 1, first, atStart => do
    match ← next with
    | some (.plain 'P') =>
      if ← accept '<' then
        let groupName ← name '>'
        if !Text.isIdentifier groupName then malformed
        return some (← capture fuel (some groupName))
      else if ← accept '=' then
        let groupName ← name ')'
        if !Text.isIdentifier groupName then malformed
        match (← get).names.lookup (String.ofList groupName) with
        | some index => return some (← samePiece index)
        | none => malformed
      else malformed
    | some (.plain ':') =>
      let p ← alternatives fuel false
      closing
      return some { p with kind := .simple }
    | some (.plain '#') =>
      skipComment
      return none
    | some (.plain '=') => return some (← lookAhead fuel false)
    | some (.plain '!') => return some (← lookAhead fuel true)
    | some (.plain '<') =>
      match ← next with
      | some (.plain '=') => return some (← lookBehind fuel false)
      | some (.plain '!') => return some (← lookBehind fuel true)
      | _ => malformed
    | some (.plain '(') =>
      let index ← askedGroup (← name ')')
      checkBehind index
      let yes ← sequence fuel false []
      let no ← if ← accept '|' then some <$> sequence fuel false [] else pure none
      closing
      let other := no.getD .empty
      return some ⟨.ifMatched index yes.pattern other.pattern, yes.width.join other.width, .simple⟩
    | some (.plain '>') =>
      let p ← alternatives fuel false
      closing
      return some ⟨.atomic p.pattern, p.width, .simple⟩
    | some (.plain c) =>
      match ← groupFlags fuel c with
      | none =>
        if first && atStart then return none else malformed
      | some (on, off) =>
        let outer := (← get).flags
        modify fun r => { r with flags := outer.within on off }
        let p ← alternatives fuel false
        modify fun r => { r with flags := outer }
        closing
        return some { p with kind := .simple }
    | _ => malformed

/-- A look ahead, after its mark. -/
def lookAhead : Nat → Bool → Reading Piece
  | 0, _ => malformed
  | fuel + 1, negated => do
    let p ← alternatives fuel false
    closing
    return ⟨.ahead negated p.pattern, ⟨0, 0⟩, .simple⟩

/-- A look behind, after its mark. -/
def lookBehind : Nat → Bool → Reading Piece
  | 0, _ => malformed
  | fuel + 1, negated => do
    let outer := (← get).behind
    let known ← groupCount
    modify fun r => { r with behind := some (outer.getD known) }
    let p ← alternatives fuel false
    modify fun r => { r with behind := outer }
    closing
    let width ← behindWidth p.width
    return ⟨.behind negated width p.pattern, ⟨0, 0⟩, .simple⟩

end

/-- The whole of a text. Each sign is behind at most four steps of the reader. -/
def whole : Reading Pattern := do
  let _ ← peek
  let p ← alternatives (4 * (← get).rest.length + 8) true
  let r ← get
  if r.flags.ascii && r.flags.unicode then throw (.fault .conflictingFlags)
  if !r.rest.isEmpty then malformed
  if r.asked.any (r.groups.length < ·) then malformed
  if r.unusable then malformed
  return p.pattern

/-- The regular expression of a text, with flags for all of it and the code points that names of
characters stand for. Groups may be nested at any depth. -/
def parse (flags : Flags) (s : String) (codeOfName? : List Char → Option Nat := Text.codeOfName?) :
    Except Refusal Pattern :=
  (whole.run { rest := signs s.toList, flags, codeOfName? }).map (·.1)

end FieldRules.Regex
