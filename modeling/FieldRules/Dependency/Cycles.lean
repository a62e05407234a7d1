import FieldRules.Dependency
import FieldRules.Text.Split

/-!
The search for cycles of dependencies. It goes through the fields depth first, looks at every pair
once, and finds one cycle for each pair that leads back to the path on which the search stands.
-/

namespace FieldRules.Dependency

/-- A field on the path of a search, and the fields after it that have not been looked at. -/
structure Frame where
  node : String
  left : List String
  deriving DecidableEq

/-- The state of a search. -/
structure Search where
  /-- The path from the root to the field that is being looked at. -/
  path : List String := []
  /-- The fields of the path with what is left of them, the last one first. -/
  frames : List Frame := []
  /-- The fields of the path, in no order. -/
  onPath : List String := []
  /-- The fields that have been on the path. -/
  visited : List String := []
  /-- The cycles that were found, each with its first field again at its end. -/
  cycles : List (List String) := []
  deriving DecidableEq

/-- What a search does next. -/
inductive Move
  /-- Nothing is left of a field: it leaves the path. -/
  | leave (node : String)
  /-- A pair leads back to the path. -/
  | close (node successor : String)
  /-- A pair leads to a field that was on the path before. -/
  | skip (node successor : String)
  /-- A pair leads to a new field: it enters the path. -/
  | enter (node successor : String)
  deriving DecidableEq

namespace Search

/-- The next move of a search, if it is not at its end. -/
def move? (s : Search) : Option Move :=
  match s.frames with
  | [] => none
  | ⟨node, []⟩ :: _ => some (.leave node)
  | ⟨node, successor :: _⟩ :: _ =>
    if successor ∈ s.onPath then some (.close node successor)
    else if successor ∈ s.visited then some (.skip node successor)
    else some (.enter node successor)

/-- The frames when one more field has been looked at. -/
def advance : List Frame → List Frame
  | [] => []
  | frame :: frames => { frame with left := frame.left.tail } :: frames

/-- The path from a field of it on, and that field again. -/
def cycleTo (s : Search) (node : String) : List String :=
  s.path.dropWhile (· != node) ++ [node]

/-- The search with a new field on its path. -/
def push (g : Dependency) (s : Search) (node : String) : Search :=
  { s with
    path := s.path ++ [node]
    frames := ⟨node, g.next node⟩ :: s.frames
    onPath := node :: s.onPath
    visited := node :: s.visited }

/-- The search after a move. -/
def after (g : Dependency) (s : Search) : Move → Search
  | .leave node =>
    { s with
      path := s.path.dropLast
      frames := s.frames.tail
      onPath := s.onPath.erase node }
  | .close _ successor =>
    { s with frames := advance s.frames, cycles := s.cycles ++ [s.cycleTo successor] }
  | .skip _ _ => { s with frames := advance s.frames }
  | .enter _ successor => push g { s with frames := advance s.frames } successor

/-- The search after at most so many moves. -/
def advanceBy (g : Dependency) : Nat → Search → Search
  | 0, s => s
  | n + 1, s =>
    match s.move? with
    | none => s
    | some m => advanceBy g n (s.after g m)

end Search

/-- Enough moves to leave every field and to look at every pair. -/
def size (g : Dependency) : Nat :=
  g.nodes.length + g.edges.length

/-- The search after everything has been visited that a root leads to. -/
def searchFrom (g : Dependency) (s : Search) (root : String) : Search :=
  if root ∈ s.visited then s else Search.advanceBy g g.size (s.push g root)

/-- The cycles of dependencies that a search over all fields finds. -/
def cycles (g : Dependency) : List (List String) :=
  (g.nodes.foldl (searchFrom g) {}).cycles

/-- How a message on a cycle starts. -/
def cycleStart : String :=
  "Circular dependency detected: "

/-- What stands between the fields of a path. -/
def arrow : String :=
  " → "

/-- The message on a cycle. -/
def cycleMessage (path : List String) : String :=
  cycleStart ++ Text.join arrow path

/-- The messages on all cycles that are found between rules. -/
def cycleMessages (rules : List Rule) : List String :=
  (ofRules rules).cycles.map cycleMessage

end FieldRules.Dependency
