import FieldRules.Text.Blank

/-!
Cutting texts at a separator, joining them again, and removing an item from a running text.
-/

namespace FieldRules.Text

/-- Puts a character in front of the first piece. -/
def consHead (c : Char) : List (List Char) → List (List Char)
  | [] => [[c]]
  | p :: ps => (c :: p) :: ps

/-- The pieces between the occurrences of a separator, after `skip` characters of the occurrence
before. Occurrences are found from the left and do not overlap. -/
def piecesAfter (sep : List Char) : Nat → List Char → List (List Char)
  | _, [] => [[]]
  | skip + 1, _ :: cs => piecesAfter sep skip cs
  | 0, c :: cs =>
    if sep.isPrefixOf (c :: cs) then [] :: piecesAfter sep (sep.length - 1) cs
    else consHead c (piecesAfter sep 0 cs)

/-- The pieces of a text between the occurrences of a separator. -/
def split (sep s : String) : List String :=
  (piecesAfter sep.toList 0 s.toList).map String.ofList

/-- The texts one after another with a separator between neighbours. -/
def join (sep : String) (parts : List String) : String :=
  String.ofList (sep.toList.intercalate (parts.map String.toList))

/-- Whether a text occurs somewhere in another. -/
def occursIn (part : List Char) : List Char → Bool
  | [] => part.isEmpty
  | c :: cs => part.isPrefixOf (c :: cs) || occursIn part cs

/-- Whether a text starts with another. -/
def startsWith (start s : String) : Bool :=
  start.toList.isPrefixOf s.toList

/-- The length of an item at the front of a text together with the blanks before it. As many
blanks as possible are counted to the space before the item and not to the item. -/
def itemLength? (item : List Char) : List Char → Option Nat
  | [] => if item.isEmpty then some 0 else none
  | c :: cs =>
    match (if isBlank c then itemLength? item cs else none) with
    | some n => some (n + 1)
    | none => if item.isPrefixOf (c :: cs) then some item.length else none

/-- A text without the occurrences of an item and the blanks before each, after `skip` characters
of the occurrence before. -/
def eraseItemsAfter (item : List Char) : Nat → List Char → List Char
  | _, [] => []
  | skip + 1, _ :: cs => eraseItemsAfter item skip cs
  | 0, c :: cs =>
    match itemLength? item (c :: cs) with
    | some n => eraseItemsAfter item (n - 1) cs
    | none => c :: eraseItemsAfter item 0 cs

/-- A text without the occurrences of an item, nor blanks before them or at its ends. -/
def eraseItems (item s : String) : String :=
  String.ofList (trimChars (eraseItemsAfter item.toList 0 s.toList))

end FieldRules.Text
