import FieldRules.Regex.Pattern

/-!
Pieces that patterns are put together from, and the least and the greatest number of characters
that they match.
-/

namespace FieldRules.Regex

/-- The least and the greatest number of characters that a pattern matches. -/
structure Width where
  low : Nat
  high : Nat
  deriving DecidableEq

namespace Width

/-- Widths are not told apart from this one on. -/
def limit : Nat := Nat.pow 2 64

/-- A width with its bounds cut at the limit. -/
def capped (low high : Nat) : Width :=
  ⟨min low limit, min high limit⟩

/-- One pattern after another. -/
def add (a b : Width) : Width :=
  capped (a.low + b.low) (a.high + b.high)

/-- One pattern or another. -/
def join (a b : Width) : Width :=
  ⟨min a.low b.low, max a.high b.high⟩

/-- A pattern repeated. -/
def times (a : Width) (least : Nat) (most : Option Nat) : Width :=
  capped (a.low * least) (match most with
    | some m => a.high * m
    | none => if a.high = 0 then 0 else limit)

end Width

/-- Whether a piece can be repeated. -/
inductive PieceKind
  | simple
  | anchor
  | repeated
  deriving DecidableEq

/-- A pattern as it stands in a sequence. -/
structure Piece where
  pattern : Pattern
  width : Width
  kind : PieceKind := .simple

/-- A piece that matches the empty text alone. -/
def Piece.empty : Piece :=
  ⟨.empty, ⟨0, 0⟩, .simple⟩

/-- The sequence of pieces, of which the last is given first. -/
def Piece.ofReversed (pieces : List Piece) : Piece :=
  pieces.foldl (fun later p => ⟨.seq p.pattern later.pattern, p.width.add later.width, .simple⟩)
    .empty

/-- The set that a pattern of one character is, unless the set is negated. -/
def Pattern.set? : Pattern → Option CharSet
  | .seq (.one s) .empty => if s.negated then none else some s
  | _ => none

/-- One piece or another. -/
def Piece.or (p q : Piece) : Piece :=
  ⟨.alt p.pattern q.pattern, p.width.join q.width, .simple⟩

/-- The first of the pieces that matches. -/
def Piece.firstOf : List Piece → Piece
  | [] => .empty
  | [p] => p
  | p :: ps => p.or (firstOf ps)

/-- Alternatives. If all of them are sets, they make up one set. -/
def Piece.ofBranches (ps : List Piece) : Piece :=
  match ps, ps.mapM (·.pattern.set?) with
  | _ :: _ :: _, some (s :: sets) =>
    ⟨.one { s with items := s.items ++ sets.flatMap (·.items) }, ⟨1, 1⟩, .simple⟩
  | _, _ => .firstOf ps

end FieldRules.Regex
