import FieldRules.Toml.Scalar

/-!
TOML documents: tables of keys and values. A table that was opened, a value that was given and an
inline table or list cannot be changed later on.
-/

namespace FieldRules.Toml

/-- A path of keys. -/
abbrev Key := List String

/-- Changes the table at a path; tables that are not there are made. With `throughLists` a list of
tables stands for its last one. -/
def changeAt (throughLists : Bool) (change : Entries Value → Option (Entries Value)) :
    Key → Entries Value → Option (Entries Value)
  | [], table => change table
  | k :: ks, table =>
    match Entries.get? table k with
    | none => (changeAt throughLists change ks []).map fun t => Entries.insert table k (.map t)
    | some (.map inner) =>
      (changeAt throughLists change ks inner).map fun t => Entries.insert table k (.map t)
    | some (.list items) =>
      match throughLists, items.getLast? with
      | true, some (.map inner) =>
        (changeAt throughLists change ks inner).map fun t =>
          Entries.insert table k (.list (items.dropLast ++ [.map t]))
      | _, _ => none
    | some _ => none

/-- A table with a value under a new key. -/
def give (key : String) (value : Value) (table : Entries Value) : Option (Entries Value) :=
  if Entries.contains table key then none else some (Entries.insert table key value)

/-- A table with one more table at the end of a list of tables. -/
def appendTable (key : String) (table : Entries Value) : Option (Entries Value) :=
  match Entries.get? table key with
  | none => some (Entries.insert table key (.list [.map []]))
  | some (.list items) => some (Entries.insert table key (.list (items ++ [.map []])))
  | some _ => none

/-- Whether a path leads into one of some closed tables or lists. -/
def isClosed (closed : List Key) (key : Key) : Bool :=
  closed.any fun c => c.isPrefixOf key

/-- Whether a value is a table or a list, and so closed once it is given. -/
def hasParts : Value → Bool
  | .map _ => true
  | .list _ => true
  | _ => false

/-- What follows the spaces at the front of a text. -/
def skipSpace (cs : List Char) : List Char :=
  cs.dropWhile isSpace

/-- What follows a comment at the front of a text. Control characters are not allowed in it. -/
def skipComment : Reader Unit
  | '#' :: cs =>
    if (cs.takeWhile (· != '\n')).any isControl then .error .malformed
    else .ok ((), cs.dropWhile (· != '\n'))
  | cs => .ok ((), cs)

/-- What follows spaces, line ends and comments, of which at most so many are passed. -/
def skipGaps : Nat → Reader Unit
  | 0, cs => .ok ((), cs)
  | n + 1, cs => do
    let ((), rest) ← skipComment (cs.dropWhile isGap)
    if rest.length = cs.length then return ((), rest) else skipGaps n rest

/-- Whether a character may stand in a key without quotes. -/
def isBare (c : Char) : Bool :=
  ('a' ≤ c && c ≤ 'z') || ('A' ≤ c && c ≤ 'Z') || isDigit c || c == '-' || c == '_'

/-- Whether a character may start a key. -/
def startsKey (c : Char) : Bool :=
  isBare c || c == '"' || c == singleQuote

/-- One part of a key. -/
def keyPart : Reader String := fun cs =>
  if cs.head?.any isBare then .ok (String.ofList (cs.takeWhile isBare), cs.dropWhile isBare)
  else
    match lineText? cs with
    | some (s, rest) => .ok (String.ofList s, rest)
    | none => .error .malformed

/-- The parts of a key with points between them, of which at most so many are read. -/
def keyWithin : Nat → Reader Key
  | 0, _ => .error .malformed
  | n + 1, cs => do
    let (part, rest) ← keyPart cs
    match skipSpace rest with
    | '.' :: rest => do
      let (parts, rest) ← keyWithin n (skipSpace rest)
      return (part :: parts, rest)
    | rest => return ([part], rest)

/-- A key and the spaces after it. -/
def key : Reader Key := fun cs =>
  keyWithin (cs.length + 1) cs

mutual

/-- A value. Nested values are read with one step less each. -/
def valueWithin : Nat → Reader Value
  | 0, _ => .error .malformed
  | n + 1, '[' :: cs => do
    let ((), cs) ← skipGaps cs.length cs
    let (xs, rest) ← itemsWithin n cs
    return (.list xs, rest)
  | n + 1, '\x7b' :: cs =>
    match skipSpace cs with
    | '\x7d' :: rest => .ok (.map [], rest)
    | cs => do
      let (table, rest) ← pairsWithin n [] [] cs
      return (.map table, rest)
  | _ + 1, cs => scalar cs

/-- The items of a list up to its end. -/
def itemsWithin : Nat → Reader (List Value)
  | _, ']' :: rest => .ok ([], rest)
  | 0, _ => .error .malformed
  | n + 1, cs => do
    let (x, cs) ← valueWithin n cs
    let ((), cs) ← skipGaps cs.length cs
    match cs with
    | ']' :: rest => return ([x], rest)
    | ',' :: cs => do
      let ((), cs) ← skipGaps cs.length cs
      let (xs, rest) ← itemsWithin n cs
      return (x :: xs, rest)
    | _ => .error .malformed

/-- The pairs of an inline table up to its end, given those before and the closed ones among
them. -/
def pairsWithin : Nat → Entries Value → List Key → Reader (Entries Value)
  | 0, _, _, _ => .error .malformed
  | n + 1, table, closed, cs => do
    let (path, cs) ← key cs
    match cs with
    | '=' :: cs => do
      let (v, cs) ← valueWithin n (skipSpace cs)
      if isClosed closed path then .error .malformed
      else
        match changeAt false (give (path.getLast?.getD "") v) path.dropLast table, skipSpace cs with
        | some table, '\x7d' :: rest => return (table, rest)
        | some table, ',' :: cs =>
          pairsWithin n table (if hasParts v then path :: closed else closed) (skipSpace cs)
        | _, _ => .error .malformed
    | _ => .error .malformed

end

/-- A value. -/
def value : Reader Value := fun cs =>
  valueWithin (2 * cs.length + 2) cs

/-- A document that is being read. -/
structure Document where
  table : Entries Value := []
  /-- The tables that must not be opened any more. -/
  opened : List Key := []
  /-- The tables that must not be opened in the sections after this one. -/
  pending : List Key := []
  /-- The inline tables and lists. -/
  closed : List Key := []
  /-- The path of the section. -/
  current : Key := []

namespace Document

/-- The document at the start of a new section. -/
def settle (d : Document) : Document :=
  { d with opened := d.opened ++ d.pending, pending := [] }

/-- The document in the section of a table. -/
def openTable (d : Document) (path : Key) : Option Document :=
  if path ∈ d.opened ∨ isClosed d.closed path then none
  else
    (changeAt true some path d.table).map fun table =>
      { d with table, opened := path :: d.opened, current := path }

/-- The document in the section of a new table of a list. What was known of the table before it
does not hold for this one. -/
def openListed (d : Document) (path : Key) : Option Document :=
  if isClosed d.closed path then none
  else
    (changeAt true (appendTable (path.getLast?.getD "")) path.dropLast d.table).map fun table =>
      { d with
        table
        opened := path :: d.opened.filter fun k => !path.isPrefixOf k
        closed := d.closed.filter fun k => !path.isPrefixOf k
        current := path }

/-- The document with a value under a path of its section. -/
def assign (d : Document) (path : Key) (v : Value) : Option Document :=
  let above := (List.range (path.length - 1)).map fun i => d.current ++ path.take (i + 1)
  let table := d.current ++ path.dropLast
  if above.any d.opened.contains || isClosed d.closed table then none
  else
    (changeAt true (give (path.getLast?.getD "") v) table d.table).map fun t =>
      { d with
        table := t
        pending := d.pending ++ above
        closed := if hasParts v then (d.current ++ path) :: d.closed else d.closed }

/-- A change of a document that may be impossible. -/
def must (changed : Option Document) : Except Refusal Document :=
  match changed with
  | some d => .ok d
  | none => .error .malformed

/-- The document after the statement at the front of a text, without what ends the line. -/
def statement (d : Document) : Reader Document
  | '[' :: '[' :: cs => do
    let (path, cs) ← key (skipSpace cs)
    let d ← must (d.settle.openListed path)
    match cs with
    | ']' :: ']' :: rest => return (d, rest)
    | _ => .error .malformed
  | '[' :: cs => do
    let (path, cs) ← key (skipSpace cs)
    let d ← must (d.settle.openTable path)
    match cs with
    | ']' :: rest => return (d, rest)
    | _ => .error .malformed
  | c :: cs =>
    if startsKey c then do
      let (path, cs) ← key (c :: cs)
      match cs with
      | '=' :: cs => do
        let (v, rest) ← value (skipSpace cs)
        let d ← must (d.assign path v)
        return (d, rest)
      | _ => .error .malformed
    else .ok (d, c :: cs)
  | [] => .ok (d, [])

/-- The document after the lines of a text, of which at most so many are read. -/
def linesWithin : Nat → Document → List Char → Except Refusal Document
  | 0, d, cs => if cs.isEmpty then .ok d else .error .malformed
  | n + 1, d, cs => do
    let (d, cs) ← d.statement (skipSpace cs)
    let ((), cs) ← skipComment (skipSpace cs)
    match cs with
    | [] => return d
    | '\n' :: cs => linesWithin n d cs
    | _ => .error .malformed

end Document

/-- A text in which every line ends with a line feed alone. -/
def unifyLineEnds : List Char → List Char
  | '\r' :: '\n' :: cs => '\n' :: unifyLineEnds cs
  | '\r' :: cs => '\n' :: unifyLineEnds cs
  | c :: cs => c :: unifyLineEnds cs
  | [] => []

/-- The table that a text stands for. -/
def decode (s : String) : Except Refusal (Entries Value) :=
  let cs := unifyLineEnds s.toList
  (Document.linesWithin (cs.length + 1) {} cs).map (·.table)

end FieldRules.Toml
