import FieldRules.Fault
import FieldRules.Regex.Flags
import FieldRules.Regex.Piece
import FieldRules.Text.CharName

/-!
Reading the text of a regular expression sign by sign. What the reader has learned of groups, flags
and widths is carried along.
-/

namespace FieldRules.Regex

/-- Why a text is no regular expression that can be used. -/
inductive Refusal
  | malformed
  | fault (f : Fault)
  deriving DecidableEq

/-- A character, an escaped character, or a backslash that escapes nothing. -/
inductive Sign
  | plain (c : Char)
  | escaped (c : Char)
  | dangling
  deriving DecidableEq

/-- The signs of a text. -/
def signs : List Char → List Sign
  | [] => []
  | ['\\'] => [.dangling]
  | '\\' :: c :: cs => .escaped c :: signs cs
  | c :: cs => .plain c :: signs cs

/-- The characters that a sign was written with. -/
def Sign.chars : Sign → List Char
  | .plain c => [c]
  | .escaped c => ['\\', c]
  | .dangling => ['\\']

/-- What the reader knows at a place. -/
structure Reader where
  rest : List Sign
  flags : Flags := {}
  /-- The widths of the groups so far, the first group first; a group that is open has none. -/
  groups : List (Option Width) := []
  names : List (String × Nat) := []
  /-- The number of groups before the outermost look behind, when inside one. -/
  behind : Option Nat := none
  /-- The groups that conditions ask for. -/
  asked : List Nat := []
  /-- The code point of a character by its name. -/
  codeOfName? : List Char → Option Nat := Text.codeOfName?
  /-- Whether something was read that cannot be run. -/
  unusable : Bool := false

/-- Reading, with a refusal as a possible end. -/
abbrev Reading := StateT Reader (Except Refusal)

namespace Reading

/-- Ends with a refusal of the text. -/
def malformed {α : Type} : Reading α :=
  throw .malformed

/-- The sign ahead. A backslash that escapes nothing must not come to stand there. -/
def peek : Reading (Option Sign) := do
  match (← get).rest.head? with
  | some .dangling => malformed
  | s => return s

/-- Takes the sign ahead. -/
def next : Reading (Option Sign) := do
  let s ← peek
  modify fun r => { r with rest := r.rest.tail }
  let _ ← peek
  return s

/-- Takes the character if it is ahead. -/
def accept (c : Char) : Reading Bool := do
  if (← peek) = some (.plain c) then
    let _ ← next
    return true
  else return false

/-- Takes up to a number of characters of a kind. -/
def takeWhile (p : Char → Bool) : Nat → Reading (List Char)
  | 0 => return []
  | n + 1 => do
    match ← peek with
    | some (.plain c) =>
      if p c then
        let _ ← next
        return c :: (← takeWhile p n)
      else return []
    | _ => return []

/-- Takes a name up to the character that ends it. It must not be empty. -/
def name (stop : Char) : Reading (List Char) := do
  let rest := (← get).rest
  let taken := rest.takeWhile (· ≠ .plain stop)
  if taken.isEmpty ∨ taken.length = rest.length then malformed
  modify fun r => { r with rest := rest.drop (taken.length + 1) }
  let _ ← peek
  return taken.flatMap Sign.chars

/-- The number of the group to come. -/
def groupCount : Reading Nat := do
  return (← get).groups.length + 1

/-- Checks that a group can be referred to from inside a look behind. -/
def checkBehind (index : Nat) : Reading Unit := do
  let r ← get
  match r.behind with
  | none => return ()
  | some known =>
    match r.groups[index - 1]? with
    | some (some _) => if known ≤ index then malformed
    | _ => malformed

/-- The width of a closed group. -/
def groupWidth (index : Nat) : Reading Width := do
  match (← get).groups[index - 1]? with
  | some (some w) => return w
  | _ => malformed

end Reading

end FieldRules.Regex
