import FieldRules.Regex.Pattern

/-!
Matching by trial: each pattern is run with what is to follow it, and tries its matches in order
until what follows succeeds.
-/

namespace FieldRules.Regex

/-- A place in a text, and the places where groups started and ended. -/
structure Cursor where
  pos : Nat
  marks : List (Nat × Nat) := []

namespace Cursor

/-- Notes the place for a mark. The start of group `g` is mark `2g`, its end mark `2g + 1`. -/
def mark (s : Cursor) (i : Nat) : Cursor :=
  { s with marks := (i, s.pos) :: s.marks }

/-- Where a group that has matched starts and ends. -/
def group? (s : Cursor) (index : Nat) : Option (Nat × Nat) :=
  match s.marks.lookup (2 * index), s.marks.lookup (2 * index + 1) with
  | some a, some b => if a ≤ b then some (a, b) else none
  | _, _ => none

end Cursor

/-- What is to follow a pattern. -/
abbrev Sequel := Cursor → Option Cursor

/-- Whether there is a word character at a place. -/
def wordAt (ascii : Bool) (text : Array Char) (pos : Nat) : Bool :=
  match text[pos]? with
  | some c => Category.word.holds ascii c.toNat
  | none => false

/-- Whether the characters on the two sides of a place differ in being part of a word. -/
def atWordEdge (ascii : Bool) (text : Array Char) (pos : Nat) : Bool :=
  (decide (0 < pos) && wordAt ascii text (pos - 1)) != wordAt ascii text pos

/-- Whether a place fulfils a condition. In an empty text there is neither an edge of a word nor a
place without one. -/
def Anchor.holds (text : Array Char) (pos : Nat) : Anchor → Bool
  | .textStart => pos == 0
  | .textEnd => pos == text.size
  | .lineStart => pos == 0 || text[pos - 1]? == some '\n'
  | .lineEnd => pos == text.size || text[pos]? == some '\n'
  | .lastLineEnd => pos == text.size || (pos + 1 == text.size && text[pos]? == some '\n')
  | .wordEdge ascii => !text.isEmpty && atWordEdge ascii text pos
  | .noWordEdge ascii => !text.isEmpty && !atWordEdge ascii text pos

/-- Whether a repetition may go on: it has not reached its maximum, and it does not stand where its
last optional round started. -/
def mayRepeat (max : Option Nat) (count : Nat) (last : Option Nat) (pos : Nat) : Bool :=
  (match max with
    | some m => decide (count < m)
    | none => true) && last != some pos

/-- As many rounds as possible, then fewer. -/
def runGreedy (round : Cursor → Sequel → Option Cursor) (min : Nat) (max : Option Nat) :
    Nat → Nat → Option Nat → Cursor → Sequel → Option Cursor
  | 0, _, _, _, _ => none
  | fuel + 1, count, last, s, k =>
    if count < min then
      round s fun s => runGreedy round min max fuel (count + 1) last s k
    else if mayRepeat max count last s.pos then
      match round s fun t => runGreedy round min max fuel (count + 1) (some s.pos) t k with
      | some r => some r
      | none => k s
    else k s

/-- As few rounds as possible, then more. -/
def runLazy (round : Cursor → Sequel → Option Cursor) (min : Nat) (max : Option Nat) :
    Nat → Nat → Option Nat → Cursor → Sequel → Option Cursor
  | 0, _, _, _, _ => none
  | fuel + 1, count, last, s, k =>
    if count < min then
      round s fun s => runLazy round min max fuel (count + 1) last s k
    else
      match k s with
      | some r => some r
      | none =>
        if mayRepeat max count last s.pos then
          round s fun t => runLazy round min max fuel (count + 1) (some s.pos) t k
        else none

/-- As many rounds as possible, each by its first match alone. -/
def runPossessive (round : Cursor → Option Cursor) (min : Nat) (max : Option Nat) :
    Nat → Nat → Option Nat → Cursor → Option Cursor
  | 0, _, _, _ => none
  | fuel + 1, count, last, s =>
    if count < min then
      match round s with
      | some t => runPossessive round min max fuel (count + 1) last t
      | none => none
    else if mayRepeat max count last s.pos then
      match round s with
      | some t => runPossessive round min max fuel (count + 1) (some s.pos) t
      | none => some s
    else some s

/-- Whether two characters compare alike. -/
def Folding.alike (f : Folding) (a b : Char) : Bool :=
  f.lower a.toNat == f.lower b.toNat

/-- The place after a repetition of an earlier part of the text. -/
def runSame (f : Folding) (text : Array Char) (start length pos : Nat) : Option Nat :=
  if (List.range length).all fun i =>
      match text[start + i]?, text[pos + i]? with
      | some a, some b => f.alike a b
      | _, _ => false
  then some (pos + length) else none

/-- A bound on the rounds of a repetition: beyond the least number each has to move on. -/
def roundBound (text : Array Char) (min pos : Nat) : Nat :=
  min + (text.size - pos) + 3

/-- Runs a pattern and what is to follow it. -/
def Pattern.run (text : Array Char) : Pattern → Cursor → Sequel → Option Cursor
  | .empty, s, k => k s
  | .one set, s, k =>
    match text[s.pos]? with
    | some c => if set.holds c then k { s with pos := s.pos + 1 } else none
    | none => none
  | .any lineBreaks, s, k =>
    match text[s.pos]? with
    | some c => if lineBreaks || c != '\n' then k { s with pos := s.pos + 1 } else none
    | none => none
  | .anchor a, s, k => if a.holds text s.pos then k s else none
  | .seq first second, s, k => first.run text s fun s => second.run text s k
  | .alt first second, s, k =>
    match first.run text s k with
    | some r => some r
    | none => second.run text s k
  | .group index body, s, k =>
    body.run text (s.mark (2 * index)) fun s => k (s.mark (2 * index + 1))
  | .same index folding, s, k =>
    match s.group? index with
    | some (a, b) =>
      match runSame folding text a (b - a) s.pos with
      | some pos => k { s with pos }
      | none => none
    | none => none
  | .ifMatched index yes no, s, k =>
    if (s.group? index).isSome then yes.run text s k else no.run text s k
  | .ahead negated body, s, k =>
    match body.run text s some, negated with
    | some t, false => k { t with pos := s.pos }
    | none, true => k s
    | _, _ => none
  | .behind negated width body, s, k =>
    if s.pos < width then if negated then k s else none
    else
      match body.run text { s with pos := s.pos - width } some, negated with
      | some t, false => k { t with pos := s.pos }
      | none, true => k s
      | _, _ => none
  | .atomic body, s, k =>
    match body.run text s some with
    | some t => k t
    | none => none
  | .loop .greedy min max body, s, k =>
    runGreedy (body.run text) min max (roundBound text min s.pos) 0 none s k
  | .loop .lazy min max body, s, k =>
    runLazy (body.run text) min max (roundBound text min s.pos) 0 none s k
  | .loop .possessive min max body, s, k =>
    match runPossessive (fun s => body.run text s some) min max (roundBound text min s.pos) 0 none
        s with
    | some t => k t
    | none => none

/-- The first match of a pattern at or after a place, of which `tries` are left. -/
def searchFrom (p : Pattern) (text : Array Char) : Nat → Nat → Option (Nat × Cursor)
  | 0, _ => none
  | tries + 1, pos =>
    match p.run text { pos } some with
    | some s => some (pos, s)
    | none => searchFrom p text tries (pos + 1)

/-- The start of the first match of a pattern, and the cursor at its end. -/
def Pattern.search (p : Pattern) (text : Array Char) : Option (Nat × Cursor) :=
  searchFrom p text (text.size + 1) 0

/-- Whether a pattern matches somewhere in a text. -/
def Pattern.occursIn (p : Pattern) (s : String) : Bool :=
  (p.search s.toList.toArray).isSome

/-- The text that a group matched. -/
def Cursor.groupText? (s : Cursor) (text : Array Char) (index : Nat) : Option String :=
  (s.group? index).map fun (a, b) => String.ofList (text.extract a b).toList

end FieldRules.Regex
