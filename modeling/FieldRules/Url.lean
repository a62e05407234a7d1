import FieldRules.Text.Blank

/-!
Absolute web addresses: a scheme, and a host or a path.
-/

namespace FieldRules.Url

/-- Whether a character is one of the letters `a` to `z` or `A` to `Z`. -/
def isLetter (c : Char) : Bool :=
  decide ('a' ≤ c ∧ c ≤ 'z' ∨ 'A' ≤ c ∧ c ≤ 'Z')

/-- Whether a character is one of the digits `0` to `9`. -/
def isDigit (c : Char) : Bool :=
  decide ('0' ≤ c ∧ c ≤ '9')

/-- Whether a character is a hexadecimal digit. -/
def isHexDigit (c : Char) : Bool :=
  isDigit c || decide ('a' ≤ c ∧ c ≤ 'f' ∨ 'A' ≤ c ∧ c ≤ 'F')

/-- Whether a character can be part of a scheme. -/
def isSchemeChar (c : Char) : Bool :=
  isLetter c || isDigit c || c == '+' || c == '-' || c == '.'

/-- The scheme at the front of an address, and the rest after its colon. -/
def scheme? (cs : List Char) : Option (List Char × List Char) :=
  let front := cs.takeWhile (· != ':')
  match front, cs.drop front.length with
  | c :: _, _ :: rest => if isLetter c && front.all isSchemeChar then some (front, rest) else none
  | _, _ => none

/-- Whether a row of characters is a decimal number up to 255 without leading noughts. -/
def isOctet (cs : List Char) : Bool :=
  !cs.isEmpty && cs.all isDigit && decide (cs.length ≤ 3) &&
    (cs == ['0'] || cs.head? != some '0') &&
    decide (cs.foldl (fun n c => 10 * n + (c.toNat - '0'.toNat)) 0 ≤ 255)

/-- Whether a text is four decimal numbers with points between them. -/
def isDottedQuad (cs : List Char) : Bool :=
  let octets := cs.splitOn '.'
  octets.length == 4 && octets.all isOctet

/-- Whether a row of characters is a group of at most four hexadecimal digits. -/
def isGroup (cs : List Char) : Bool :=
  !cs.isEmpty && cs.all isHexDigit && decide (cs.length ≤ 4)

/-- The groups on one side of a double colon. At the edge of the address there are none, and the
side is written as one empty group. -/
def sideGroups? (atEdge : Option (List Char)) (groups : List (List Char)) :
    Option (List (List Char)) :=
  if atEdge = some [] then if groups.length = 1 then some [] else none else some groups

/-- The groups of an address, with a dotted quad at the end as two of them. -/
def expandQuad? (groups : List (List Char)) : Option (List (List Char)) :=
  match groups.getLast? with
  | some last =>
    if last.contains '.' then
      if isDottedQuad last then some (groups.dropLast ++ [['0'], ['0']]) else none
    else some groups
  | none => none

/-- Whether groups make an address: eight of them, or fewer around one double colon. -/
def areGroups (groups : List (List Char)) : Bool :=
  let inner := (groups.drop 1).dropLast
  let skip := 1 + (inner.takeWhile fun g => !g.isEmpty).length
  match (inner.filter List.isEmpty).length with
  | 0 => groups.length == 8 && groups.all isGroup
  | 1 =>
    let high := groups.take skip
    let low := groups.drop (skip + 1)
    match sideGroups? high.head? high, sideGroups? low.getLast? low with
    | some high, some low =>
      decide (high.length + low.length ≤ 7) && high.all isGroup && low.all isGroup
    | _, _ => false
  | _ => false

/-- Whether a zone after an address is well formed. -/
def isZone (cs : List Char) : Bool :=
  cs.isEmpty || (decide (2 ≤ cs.length) && !(cs.drop 1).contains '%')

/-- Whether a text is an address of eight groups, perhaps with a zone after a percent sign. -/
def isGroupedAddress (cs : List Char) : Bool :=
  let groups := (cs.takeWhile (· != '%')).splitOn ':'
  isZone (cs.dropWhile (· != '%')) && decide (3 ≤ groups.length) &&
    match expandQuad? groups with
    | some groups => decide (groups.length ≤ 9) && areGroups groups
    | none => false

/-- Whether a text is an address of a later version. -/
def isVersionedAddress : List Char → Bool
  | 'v' :: cs =>
    let version := cs.takeWhile isHexDigit
    !version.isEmpty &&
      match cs.drop version.length with
      | '.' :: rest => !rest.isEmpty
      | _ => false
  | _ => false

/-- Whether a host in brackets is an address. -/
def isBracketedHost (cs : List Char) : Bool :=
  if cs.head? = some 'v' then isVersionedAddress cs
  else !cs.contains '/' && isGroupedAddress cs

/-- Characters that are other forms of one of the signs `/`, `?`, `#`, `@` and `:`, or contain
one. -/
def signLookalikes : List Nat :=
  [0x2047, 0x2048, 0x2049, 0x2100, 0x2101, 0x2105, 0x2106, 0x2a74, 0xfe13, 0xfe16, 0xfe55, 0xfe56,
    0xfe5f, 0xfe6b, 0xff03, 0xff0f, 0xff1a, 0xff1f, 0xff20]

/-- Whether the part of an address that names the host is well formed. -/
def isHostPart (cs : List Char) : Bool :=
  let opened := cs.contains '['
  let closed := cs.contains ']'
  opened == closed &&
    (!opened || isBracketedHost (((cs.dropWhile (· != '[')).drop 1).takeWhile (· != ']'))) &&
    !cs.any fun c => signLookalikes.contains c.toNat

/-- Whether a character ends the part that names the host. -/
def endsHost (c : Char) : Bool :=
  c == '/' || c == '?' || c == '#'

/-- The host part and the path of an address after its scheme. -/
def hostAndPath (cs : List Char) : List Char × List Char :=
  match cs with
  | '/' :: '/' :: rest =>
    (rest.takeWhile (!endsHost ·), (rest.dropWhile (!endsHost ·)).takeWhile (!isTail ·))
  | cs => ([], cs.takeWhile (!isTail ·))
where
  /-- Whether a character ends a path. -/
  isTail (c : Char) : Bool := c == '?' || c == '#'

/-- Schemes that mean something only with a host. -/
def hostSchemes : List String :=
  ["http", "https", "ws", "wss", "ftp"]

/-- A letter from `A` to `Z` in lower case. -/
def lowerLetter (c : Char) : Char :=
  if 'A' ≤ c ∧ c ≤ 'Z' then Char.ofNat (c.toNat + 32) else c

/-- Whether a text is an absolute address. It must not hold blanks; control characters in front of
it are skipped. -/
def isAbsolute (s : String) : Bool :=
  let cs := s.toList
  !cs.any Text.isBlank &&
    match scheme? (cs.dropWhile fun c => decide (c.toNat ≤ 0x20)) with
    | none => false
    | some (scheme, rest) =>
      let (host, path) := hostAndPath rest
      isHostPart host &&
        if hostSchemes.contains (String.ofList (scheme.map lowerLetter)) then !host.isEmpty
        else !host.isEmpty || !path.isEmpty

end FieldRules.Url
